import Vimgen.Text.Quoted

/-!
# Bytes of a text file

Text is stored as UTF-8 and written byte for byte (`encode`). Reading checks every byte
(`decode`), says where and why it stopped (`Fault`), and takes each of the three line ends in use
for a newline (`unifyNewlines`).
-/

namespace Vimgen.Text.Utf8

/-- The bytes of a text. -/
def encode (s : String) : List UInt8 := s.toList.flatMap String.utf8EncodeChar

/-- Why a byte sequence is no character. -/
inductive Reason where
  | badStart
  | badContinuation
  | truncated
  deriving DecidableEq, Repr

/-- The first ill-formed sequence: its first byte, where it starts and how many bytes it has. -/
structure Fault where
  start : Nat
  length : Nat
  lead : UInt8
  reason : Reason
  deriving DecidableEq, Repr

/-- The wording of a reason. -/
def Reason.message : Reason → String
  | .badStart => "invalid start byte"
  | .badContinuation => "invalid continuation byte"
  | .truncated => "unexpected end of data"

/-- The wording of a fault, with the bytes it is about. -/
def Fault.message (f : Fault) : String :=
  let place :=
    if f.length = 1 then
      s!"byte 0x{String.ofList (hexDigits 2 f.lead.toNat)} in position {f.start}"
    else s!"bytes in position {f.start}-{f.start + f.length - 1}"
  s!"'utf-8' codec can't decode {place}: {f.reason.message}"

/-- Whether a byte can only follow another one of its character. -/
def isContinuation (b : UInt8) : Bool := 0x80 ≤ b && b < 0xC0

/-- The byte after the lead is a continuation byte, and the two together neither spell a character
in more bytes than needed nor leave the range of characters. -/
def isSecond (lead b : UInt8) : Bool :=
  isContinuation b &&
    !(lead = 0xE0 && b < 0xA0) && !(lead = 0xED && 0xA0 ≤ b) &&
    !(lead = 0xF0 && b < 0x90) && !(lead = 0xF4 && 0x90 ≤ b)

/-- The payload of a continuation byte. -/
def payload (b : UInt8) : Nat := b.toNat % 0x40

/-- Reads characters from position `pos` on. -/
def decodeFrom (pos : Nat) : List UInt8 → Except Fault (List Char)
  | [] => .ok []
  | b₀ :: r₀ =>
    if b₀ < 0x80 then
      (decodeFrom (pos + 1) r₀).map (Char.ofNat b₀.toNat :: ·)
    else if b₀ < 0xC2 || 0xF4 < b₀ then .error ⟨pos, 1, b₀, .badStart⟩
    else match r₀ with
      | [] => .error ⟨pos, 1, b₀, .truncated⟩
      | b₁ :: r₁ =>
        if !isSecond b₀ b₁ then .error ⟨pos, 1, b₀, .badContinuation⟩
        else if b₀ < 0xE0 then
          (decodeFrom (pos + 2) r₁).map (Char.ofNat (b₀.toNat % 0x20 * 0x40 + payload b₁) :: ·)
        else match r₁ with
          | [] => .error ⟨pos, 2, b₀, .truncated⟩
          | b₂ :: r₂ =>
            if !isContinuation b₂ then .error ⟨pos, 2, b₀, .badContinuation⟩
            else if b₀ < 0xF0 then
              (decodeFrom (pos + 3) r₂).map
                (Char.ofNat ((b₀.toNat % 0x10 * 0x40 + payload b₁) * 0x40 + payload b₂) :: ·)
            else match r₂ with
              | [] => .error ⟨pos, 3, b₀, .truncated⟩
              | b₃ :: r₃ =>
                if !isContinuation b₃ then .error ⟨pos, 3, b₀, .badContinuation⟩
                else
                  (decodeFrom (pos + 4) r₃).map
                    (Char.ofNat (((b₀.toNat % 0x08 * 0x40 + payload b₁) * 0x40 + payload b₂) * 0x40
                      + payload b₃) :: ·)

/-- The text of a byte sequence, or its first fault. -/
def decode (bytes : List UInt8) : Except Fault (List Char) := decodeFrom 0 bytes

/-- A carriage return, alone or before a newline, becomes a newline. -/
def unifyNewlines : List Char → List Char
  | [] => []
  | '\r' :: '\n' :: rest => '\n' :: unifyNewlines rest
  | '\r' :: rest => '\n' :: unifyNewlines rest
  | c :: rest => c :: unifyNewlines rest

end Vimgen.Text.Utf8
