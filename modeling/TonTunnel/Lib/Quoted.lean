import TonTunnel.Lib.Find

/-!
Searching a text for a word between two quotes.

Where the text is made of pieces in quotes, and a quote inside a piece has an escape
before it, the word is found where it is a whole piece (`behind_quoted`), and else only at
the end of a piece, behind its last escaped quote (`behind_escaped`).
-/

namespace Find

variable {α : Type} {q e : α} {key front w v back : List α}

/-- The word between two quotes. -/
def quoted (q : α) (key : List α) : List α := q :: key ++ [q]

/-- Each quote of the piece has the escape before it. -/
def Escaped (q e : α) (v : List α) : Prop :=
  ∀ before after, v = before ++ q :: after → before.getLast? = some e

theorem Escaped.of_notMem (clean : q ∉ v) : Escaped q e v := by
  rintro before after rfl
  exact absurd (List.mem_append_right _ List.mem_cons_self) clean

/-- What stands behind an escaped quote is a piece again: it does not begin with a quote,
since a quote is no escape. -/
theorem Escaped.behind_quote (differ : q ≠ e) (escaped : Escaped q e (w ++ q :: v)) :
    Escaped q e v := by
  rintro before after rfl
  have last := escaped (w ++ q :: before) after (by rw [List.append_assoc, List.cons_append])
  cases before with
  | nil =>
      rw [List.getLast?_append_of_ne_nil _ (List.cons_ne_nil _ _)] at last
      cases last
      exact absurd rfl differ
  | cons c before =>
      rw [List.getLast?_append_of_ne_nil _ (List.cons_ne_nil _ _),
        List.getLast?_cons_cons] at last
      exact last

/-- A piece ends in a quote and the word where its part behind an inner quote does. -/
theorem suffix_behind_quote (clean : q ∉ key) :
    q :: key <:+ q :: (w ++ q :: v) ↔ q :: key <:+ q :: v := by
  have within : q :: v <:+ q :: (w ++ q :: v) := List.suffix_append (q :: w) (q :: v)
  constructor
  · intro ends
    rcases List.suffix_or_suffix_of_suffix ends within with short | long
    · exact short
    · rcases List.suffix_cons_iff.mp long with same | inner
      · rw [same]
      · exact absurd (inner.subset List.mem_cons_self) clean
  · intro ends
    exact ends.trans within

section Search

variable [DecidableEq α]

/-- What stands behind the first place of `sep`. -/
def behind (sep text : List α) : Option (List α) :=
  (cut sep text).map Prod.snd

theorem behind_eq_some {sep text rest : List α} (found : behind sep text = some rest) :
    ∃ i, find sep text = some i ∧ text.drop (i + sep.length) = rest := by
  rw [behind, cut, Option.map_map] at found
  exact Option.map_eq_some_iff.mp found

theorem behind_eq_none {sep text : List α} : behind sep text = none ↔ find sep text = none := by
  rw [behind, cut, Option.map_map, Option.map_eq_none_iff]

theorem behind_cons {sep text : List α} {c : α} : behind sep (c :: text) =
    if sep <+: c :: text then some ((c :: text).drop sep.length) else behind sep text := by
  rw [behind, cut, find]
  split
  · rw [Option.map_some, Option.map_some, Nat.zero_add]
  · rw [behind, cut, Option.map_map, Option.map_map, Option.map_map]
    congr 1
    funext i
    rw [Function.comp, Function.comp, Function.comp, Nat.add_right_comm, List.drop_succ_cons]

/-- Before the first quote there is nothing to find. -/
theorem behind_skip {text : List α} (clean : q ∉ front) :
    behind (quoted q key) (front ++ text) = behind (quoted q key) text := by
  induction front with
  | nil => rfl
  | cons c front ih =>
      obtain ⟨other, clean⟩ := not_or.mp (mt List.mem_cons.mpr clean)
      have elsewhere : ¬ quoted q key <+: c :: (front ++ text) := by
        intro here
        exact other (List.cons_prefix_cons.mp here).1
      rw [List.cons_append, behind_cons, if_neg elsewhere, ih clean]

/-- A word without quotes is found up to the quote behind it. -/
theorem prefix_quote (clean : q ∉ key) (noQuote : q ∉ w) :
    key ++ [q] <+: w ++ q :: back ↔ w = key := by
  constructor
  · rintro ⟨rest, whole⟩
    rw [List.append_assoc, List.singleton_append] at whole
    have cutAt : cut [q] (key ++ q :: rest) = some (key, rest) := cut_singleton clean
    rw [whole, cut_singleton noQuote] at cutAt
    exact congrArg Prod.fst (Option.some.inj cutAt)
  · rintro rfl
    exact (List.prefix_append_right_inj w).mpr
      (List.cons_prefix_cons.mpr ⟨rfl, List.nil_prefix⟩)

/-- A whole piece is found, and otherwise the search goes on at its second quote. -/
theorem behind_quoted (clean : q ∉ key) (noQuote : q ∉ w) :
    behind (quoted q key) (q :: (w ++ q :: back)) =
      if w = key then some back else behind (quoted q key) (q :: back) := by
  have here : quoted q key <+: q :: (w ++ q :: back) ↔ w = key := by
    have inside : key ++ [q] <+: w ++ q :: back ↔ w = key := prefix_quote clean noQuote
    rw [← inside]
    exact List.prefix_cons_inj q
  rw [behind_cons]
  by_cases same : w = key
  · rw [if_pos (here.mpr same), if_pos same, same]
    simp [quoted]
  · rw [if_neg (mt here.mp same), if_neg same, behind_skip noQuote]

/-- Behind the last quote there is nothing to find. -/
theorem behind_last (noQuote : q ∉ back) : behind (quoted q key) (q :: back) = none := by
  have elsewhere : ¬ quoted q key <+: q :: back := by
    intro here
    apply noQuote
    apply ((List.prefix_cons_inj q).mp here).subset
    exact List.mem_append_right _ List.mem_cons_self
  have rest : behind (quoted q key) (back ++ []) = behind (quoted q key) [] := behind_skip noQuote
  rw [List.append_nil] at rest
  rw [behind_cons, if_neg elsewhere, rest]
  rfl

/-- A piece with escaped quotes: its end behind the last of them is found. -/
theorem behind_escaped (differ : q ≠ e) (clean : q ∉ key) (plain : key.getLast? ≠ some e)
    {v : List α} (escaped : Escaped q e v) :
    behind (quoted q key) (q :: (v ++ q :: back)) =
      if q :: key <:+ q :: v then some back else behind (quoted q key) (q :: back) := by
  by_cases inner : q ∈ v
  · obtain ⟨w, rest, rfl, noQuote⟩ := List.eq_append_cons_of_mem inner
    have other : w ≠ key := by
      rintro rfl
      exact plain (escaped w rest rfl)
    rw [List.append_assoc, List.cons_append, behind_quoted clean noQuote, if_neg other,
      behind_escaped differ clean plain (escaped.behind_quote differ)]
    simp only [suffix_behind_quote clean]
  · rw [behind_quoted clean inner]
    have whole : q :: key <:+ q :: v ↔ v = key := by
      constructor
      · intro ends
        rcases List.suffix_cons_iff.mp ends with same | inside
        · exact (List.cons.inj same).2.symm
        · exact absurd (inside.subset List.mem_cons_self) inner
      · rintro rfl
        exact List.suffix_rfl
    simp only [whole]
termination_by v.length

end Search

end Find
