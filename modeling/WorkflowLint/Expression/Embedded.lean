/-
Expressions embedded in a document between `<%` and `%>`.

An opening mark counts if a closing one follows it and the text between the two, without white space at its ends, stays
on one line; an opening mark that does not count is passed over. Reading goes on after the closing mark, so occurrences
never overlap. The structure of the document around them plays no part.
-/
import WorkflowLint.LineTable
import WorkflowLint.Text.Blank

namespace WorkflowLint.Expression

open WorkflowLint.Text

/-- Where an expression stands, in bytes: its opening mark, the end of its closing mark, and the first character of its
body. -/
structure Site where
  start : Nat
  stop : Nat
  bodyStart : Nat
  body : List Char
deriving DecidableEq, Repr

/-- what stands before the first closing mark -/
def beforeClose : List Char → Option (List Char)
  | [] => none
  | [_] => none
  | c :: d :: rest =>
    if c = '%' ∧ d = '>' then some [] else (beforeClose (d :: rest)).map fun inside => c :: inside

/-- What an opening mark at the byte offset `start`, with `rest` after it, leads to: the text between the marks and the
site. -/
def siteAt (start : Nat) (rest : List Char) : Option (List Char × Site) :=
  match beforeClose rest with
  | none => none
  | some inside =>
    let body := trim inside
    if body.contains '\n' then none
    else
      let lead := inside.takeWhile isBlank
      some (inside, ⟨start, start + utf8Length inside + 4, start + 2 + utf8Length lead, body⟩)

/-- the sites of a text that begins at the byte `offset` and of which `skip` characters are already read -/
def sitesFrom : Nat → Nat → List Char → List Site
  | _, _, [] => []
  | skip + 1, offset, c :: rest => sitesFrom skip (offset + c.utf8Size) rest
  | 0, offset, c :: rest =>
    match c, rest with
    | '<', '%' :: tail =>
      match siteAt offset tail with
      | some (inside, site) => site :: sitesFrom (inside.length + 3) (offset + 1) rest
      | none => sitesFrom 0 (offset + 1) rest
    | _, _ => sitesFrom 0 (offset + c.utf8Size) rest

/-- the sites of a text, in document order -/
def sites (text : List Char) : List Site :=
  sitesFrom 0 0 text

/-- an embedded expression: its body without white space at the ends, the range of the whole with its marks, and the
position of the body's first character -/
structure Occurrence where
  body : List Char
  range : Range
  bodyStart : Position
deriving DecidableEq, Repr

/-- the occurrence at a site, whatever it takes to measure offsets -/
def Site.occurrenceVia {m : Type → Type} [Monad m] (range : Nat → Nat → m Range) (position : Nat → m Position)
    (site : Site) : m Occurrence := do
  return ⟨site.body, ← range site.start site.stop, ← position site.bodyStart⟩

def Site.occurrence (table : LineTable) (site : Site) : Occurrence :=
  Id.run (site.occurrenceVia (fun start stop => pure (table.range start stop)) fun offset => pure (table.position offset))

theorem Site.occurrence_eq (table : LineTable) (site : Site) :
    site.occurrence table = ⟨site.body, table.range site.start site.stop, table.position site.bodyStart⟩ :=
  rfl

/-- every embedded expression of a document, in document order -/
def occurrences (table : LineTable) : List Occurrence :=
  (sites table.source).map (Site.occurrence table)

end WorkflowLint.Expression
