/-
The characters that a YAML text may hold, and when one that it may not hold is noticed.

A text is looked over in blocks, each of as many whole characters as fit in 16384 bytes, and a block is looked over only when
reading comes near it. So a refused character hides every fault of its own block and of later ones, but none before that.
-/
import WorkflowLint.Yaml.Mark

namespace WorkflowLint.Yaml

/-- whether a YAML text may hold a character -/
def isAllowed (c : Char) : Bool :=
  let n := c.toNat
  n == 0x09 || n == 0x0A || n == 0x0D || (0x20 ≤ n && n ≤ 0x7E) || n == 0x85 || (0xA0 ≤ n && n ≤ 0xD7FF) ||
    (0xE000 ≤ n && n ≤ 0xFFFD) || 0x10000 ≤ n

/-- most bytes of a block -/
def blockSize : Nat := 16384

/-- a refused character: the byte offset at which its block begins, and its own -/
structure Refusal where
  block : Nat
  offset : Nat
deriving DecidableEq, Repr

/-- the first refused character of a text that begins at the byte `offset`, in a block that begins at the byte `block` -/
def refusalFrom (block offset : Nat) : List Char → Option Refusal
  | [] => none
  | c :: rest =>
    let block := if block + blockSize < offset + c.utf8Size then offset else block
    if isAllowed c then refusalFrom block (offset + c.utf8Size) rest else some ⟨block, offset⟩

/-- the first refused character of a text -/
def refusal? (text : List Char) : Option Refusal :=
  refusalFrom 0 0 text

/-- how many characters reading looks ahead -/
def lookahead : Nat := 4

/-- whether reading can come to a place before the refused character's block is looked over -/
def Refusal.allows (refusal : Refusal) (mark : Mark) : Bool :=
  mark.index + lookahead ≤ refusal.block

end WorkflowLint.Yaml
