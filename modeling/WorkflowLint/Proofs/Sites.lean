/-
Embedded expressions stand in the document where their sites say.

`siteAt` measures a site in bytes from what it finds after the opening mark. Here the measures are tied to the document:
`mem_sites` gives, for each site, the text before its opening mark, the text between the marks and the text after them,
and `Site.body_stands` the place of the body itself, which is what is left between the marks without white space at either
end.
-/
import Mathlib.Data.List.TakeWhile
import WorkflowLint.Expression.Embedded
import WorkflowLint.Proofs.Coordinates

namespace WorkflowLint

open WorkflowLint.Text

/-! ## Trimming -/

namespace Text

theorem trimEnd_append (text : List Char) :
    ∃ trail, text = trimEnd text ++ trail ∧ ∀ c ∈ trail, isBlank c = true := by
  refine ⟨(text.reverse.takeWhile isBlank).reverse, ?_, ?_⟩
  · rw [trimEnd, ← List.reverse_append, List.takeWhile_append_dropWhile, List.reverse_reverse]
  · intro c hc
    exact List.mem_takeWhile_imp (List.mem_reverse.1 hc)

/-- A text is its leading white space, what trimming leaves of it, and more white space. -/
theorem trim_append (text : List Char) :
    ∃ trail, text = text.takeWhile isBlank ++ (trim text ++ trail) ∧ ∀ c ∈ trail, isBlank c = true := by
  obtain ⟨trail, h, hb⟩ := trimEnd_append (trimStart text)
  refine ⟨trail, ?_, hb⟩
  calc text = text.takeWhile isBlank ++ trimStart text := List.takeWhile_append_dropWhile.symm
    _ = text.takeWhile isBlank ++ (trim text ++ trail) := congrArg _ h

theorem isBlank_getLast?_trimEnd {text : List Char} {c : Char} (h : (trimEnd text).getLast? = some c) :
    isBlank c = false := by
  have hhead := List.head?_dropWhile_not isBlank text.reverse
  rw [trimEnd, List.getLast?_reverse] at h
  rwa [h] at hhead

theorem isBlank_head?_trim {text : List Char} {c : Char} (h : (trim text).head? = some c) : isBlank c = false := by
  obtain ⟨trail, ht, -⟩ := trimEnd_append (trimStart text)
  have hstart : (trimStart text).head? = some c := by
    rw [ht, List.head?_append]
    exact Option.or_eq_some_iff.2 (Or.inl h)
  have hhead := List.head?_dropWhile_not isBlank text
  rw [trimStart] at hstart
  rwa [hstart] at hhead

theorem trimEnd_eq_self {text : List Char} (h : ∀ c, text.getLast? = some c → isBlank c = false) :
    trimEnd text = text := by
  have hdrop : text.reverse.dropWhile isBlank = text.reverse := by
    cases hr : text.reverse with
    | nil => rfl
    | cons c rest =>
      have hlast : text.getLast? = some c := by rw [← List.head?_reverse, hr]; rfl
      rw [List.dropWhile_cons_of_neg (by rw [h c hlast]; decide)]
  rw [trimEnd, hdrop, List.reverse_reverse]

theorem trim_trim (text : List Char) : trim (trim text) = trim text := by
  have hstart : trimStart (trim text) = trim text := by
    cases ht : trim text with
    | nil => rfl
    | cons c rest =>
      have hc : isBlank c = false := isBlank_head?_trim (by rw [ht]; rfl)
      rw [trimStart, List.dropWhile_cons_of_neg (by rw [hc]; decide)]
  rw [trim, hstart]
  exact trimEnd_eq_self fun c hc => isBlank_getLast?_trimEnd hc

end Text

/-! ## Sites -/

namespace Expression

theorem beforeClose_append {text inside : List Char} (h : beforeClose text = some inside) :
    ∃ after, text = inside ++ '%' :: '>' :: after := by
  fun_induction beforeClose text generalizing inside with
  | case1 => simp at h
  | case2 => simp at h
  | case3 c d rest hm =>
    obtain ⟨rfl, rfl⟩ := hm
    obtain rfl : [] = inside := Option.some.inj h
    exact ⟨rest, rfl⟩
  | case4 c d rest _ ih =>
    obtain ⟨inner, hi, rfl⟩ := Option.map_eq_some_iff.1 h
    obtain ⟨after, ha⟩ := ih hi
    exact ⟨after, by rw [ha]; rfl⟩

theorem siteAt_eq_some {start : Nat} {rest inside : List Char} {site : Site}
    (h : siteAt start rest = some (inside, site)) :
    beforeClose rest = some inside ∧ '\n' ∉ trim inside ∧
      site = ⟨start, start + utf8Length inside + 4, start + 2 + utf8Length (inside.takeWhile isBlank), trim inside⟩ := by
  unfold siteAt at h
  split at h
  case h_1 => simp at h
  case h_2 found hf =>
    simp only [List.contains_iff_mem] at h
    split at h
    case isTrue => simp at h
    case isFalse hn =>
      obtain ⟨rfl, rfl⟩ := Prod.mk.inj (Option.some.inj h)
      exact ⟨hf, hn, rfl⟩

/-- the site stands behind an opening mark of the text, which begins at the byte `offset` -/
def Site.FoundIn (offset : Nat) (text : List Char) (site : Site) : Prop :=
  ∃ before inside rest, text = before ++ '<' :: '%' :: rest ∧
    siteAt (offset + utf8Length before) rest = some (inside, site)

theorem Site.FoundIn.cons {offset : Nat} {c : Char} {text : List Char} {site : Site}
    (h : site.FoundIn (offset + c.utf8Size) text) : site.FoundIn offset (c :: text) := by
  obtain ⟨before, inside, rest, rfl, hs⟩ := h
  exact ⟨c :: before, inside, rest, rfl, by rw [utf8Length, ← Nat.add_assoc]; exact hs⟩

theorem mem_sitesFrom {skip offset : Nat} {text : List Char} {site : Site} (h : site ∈ sitesFrom skip offset text) :
    site.FoundIn offset text := by
  fun_induction sitesFrom skip offset text with
  | case1 => simp at h
  | case2 skip offset c rest ih => exact (ih h).cons
  | case3 offset tail inside found hs ih =>
    rcases List.mem_cons.1 h with rfl | h
    · exact ⟨[], inside, tail, rfl, hs⟩
    · exact Site.FoundIn.cons (c := '<') (ih h)
  | case4 offset tail _ ih => exact Site.FoundIn.cons (c := '<') (ih h)
  | case5 offset c rest _ ih => exact (ih h).cons

/-- **Sites stand between marks.** What a site says in bytes holds of the text: its opening mark stands at `start`, the
first closing mark after that ends at `stop`, and the body is what trimming leaves of the text between them. -/
theorem mem_sites {text : List Char} {site : Site} (h : site ∈ sites text) :
    ∃ before inside after, text = before ++ '<' :: '%' :: (inside ++ '%' :: '>' :: after) ∧
      beforeClose (inside ++ '%' :: '>' :: after) = some inside ∧ '\n' ∉ site.body ∧
      site = ⟨utf8Length before, utf8Length before + utf8Length inside + 4,
        utf8Length before + 2 + utf8Length (inside.takeWhile isBlank), trim inside⟩ := by
  obtain ⟨before, inside, rest, rfl, hs⟩ := mem_sitesFrom h
  rw [Nat.zero_add] at hs
  obtain ⟨hc, hn, rfl⟩ := siteAt_eq_some hs
  obtain ⟨after, rfl⟩ := beforeClose_append hc
  exact ⟨before, inside, after, rfl, hc, hn, rfl⟩

/-- the byte offset at which the body of a site ends -/
def Site.bodyStop (site : Site) : Nat :=
  site.bodyStart + utf8Length site.body

/-- The body of a site stands in the text at the offset the site gives for it. -/
theorem Site.body_stands {text : List Char} {site : Site} (h : site ∈ sites text) :
    ∃ front back, text = front ++ site.body ++ back ∧ utf8Length front = site.bodyStart := by
  obtain ⟨before, inside, after, rfl, -, -, rfl⟩ := mem_sites h
  obtain ⟨trail, ht, -⟩ := trim_append inside
  refine ⟨before ++ '<' :: '%' :: inside.takeWhile isBlank, trail ++ '%' :: '>' :: after, ?_, ?_⟩
  · have hinside := congrArg (· ++ '%' :: '>' :: after) ht
    simpa using hinside
  · have hmark : utf8Length ('<' :: '%' :: inside.takeWhile isBlank) = 2 + utf8Length (inside.takeWhile isBlank) := by
      show 1 + (1 + _) = _
      omega
    rw [utf8Length_append, hmark]
    exact (Nat.add_assoc _ _ _).symm

end Expression

end WorkflowLint
