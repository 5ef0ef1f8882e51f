import TonTunnel.Protocol.Server
import TonTunnel.Lib.Datagram
import TonTunnel.Lib.Find
import TonTunnel.Lib.FlatJson

/-!
`extractJsonStringField`, which reads the configuration of the desktop client.

The scanner looks for the quoted key, for a colon behind it, for a quote behind that and
for the next quote without a backslash before it, wherever these stand. In a JSON object
they are the name, the colon and the value of one member only if no other string has the
quoted key in it before the member's own colon, if the value is a string, and if it does
not end in a backslash (`string_span_iff`). For a key that has no string to return, the
scanner returns what is quoted behind the next colon (`extract_eq_nil_iff`).
-/

namespace TonTunnel.JsonField

open TonTunnel Find FlatJson Datagram

/-! ### The scanner -/

/-- The loop that looks for the closing quote. -/
def scanQuote (json : Bytes) (quoteEnd : Nat) : Nat :=
  if quoteEnd < json.length then
    if json[quoteEnd]? = some 34 ∧ json[quoteEnd - 1]? ≠ some 92 then quoteEnd
    else scanQuote json (quoteEnd + 1)
  else quoteEnd
termination_by json.length - quoteEnd

def needle (key : Bytes) : Bytes :=
  34 :: key ++ [34]

/-- `quoteStart` and `quoteEnd`, where `extractJsonStringField` does not return early. -/
def quotes (json key : Bytes) : Option (Nat × Nat) :=
  match find (needle key) json with
  | none => none
  | some keyPos =>
      match findFrom [58] json (keyPos + (needle key).length) with
      | none => none
      | some colonPos =>
          match findFrom [34] json (colonPos + 1) with
          | none => none
          | some quoteStart =>
              let quoteEnd := scanQuote json (quoteStart + 1)
              if quoteEnd ≥ json.length then none else some (quoteStart, quoteEnd)

def extractJsonStringField (json key : Bytes) : Bytes :=
  match quotes json key with
  | none => []
  | some (quoteStart, quoteEnd) => (json.drop (quoteStart + 1)).take (quoteEnd - quoteStart - 1)

/-! ### Quotes -/

/-- A quote without a backslash before it. -/
def Ends (json : Bytes) (i : Nat) : Prop :=
  json[i]? = some 34 ∧ json[i - 1]? ≠ some 92

section Scanner

variable {json key : Bytes} {i e keyPos colonPos quoteStart quoteEnd : Nat}

/-- The loop stops at the first such quote. -/
theorem scanQuote_spec (start : i ≤ json.length) : i ≤ scanQuote json i ∧
    (∀ j, i ≤ j → j < scanQuote json i → ¬ Ends json j) ∧
    (scanQuote json i < json.length → Ends json (scanQuote json i)) := by
  fun_induction scanQuote json i with
  | case1 i inside ends =>
      refine ⟨le_rfl, ?_, fun _ => ends⟩
      intro j behind before
      omega
  | case2 i inside goesOn ih =>
      obtain ⟨le, none, stop⟩ := ih inside
      refine ⟨by omega, ?_, stop⟩
      intro j behind before
      by_cases here : j = i
      · rw [here]
        exact goesOn
      · exact none j (by omega) before
  | case3 i outside =>
      refine ⟨le_rfl, ?_, fun inside => absurd inside outside⟩
      intro j behind before
      omega

theorem scanQuote_eq (behind : i ≤ e) (ends : Ends json e)
    (first : ∀ j, i ≤ j → j < e → ¬ Ends json j) : scanQuote json i = e := by
  have inside := (List.getElem?_eq_some_iff.mp ends.1).1
  obtain ⟨le, none, stop⟩ := @scanQuote_spec json i (by omega)
  rcases Nat.lt_trichotomy (scanQuote json i) e with before | same | after
  · exact absurd (stop (by omega)) (first _ le before)
  · exact same
  · exact absurd ends (none e behind after)

/-- Where the scanner looks: behind the first quoted key, the first colon and the first
quote. -/
structure Looks (json key : Bytes) (colonPos quoteStart : Nat) : Prop where
  keyed : ∃ keyPos, FirstAt (needle key) json keyPos ∧
    NextAt 58 json (keyPos + (needle key).length) colonPos
  quoted : NextAt 34 json (colonPos + 1) quoteStart

theorem Looks.unique {colonPos' quoteStart' : Nat} (h : Looks json key colonPos quoteStart)
    (h' : Looks json key colonPos' quoteStart') :
    colonPos = colonPos' ∧ quoteStart = quoteStart' := by
  obtain ⟨⟨keyPos, first, colon⟩, quote⟩ := h
  obtain ⟨⟨keyPos', first', colon'⟩, quote'⟩ := h'
  obtain rfl := first.unique first'
  obtain rfl := colon.unique colon'
  exact ⟨rfl, quote.unique quote'⟩

/-- Behind that quote the scanner looks for a closing one. -/
theorem Looks.quotes_eq (looks : Looks json key colonPos quoteStart) : quotes json key =
    if scanQuote json (quoteStart + 1) ≥ json.length then none
    else some (quoteStart, scanQuote json (quoteStart + 1)) := by
  obtain ⟨⟨keyPos, first, colon⟩, quote⟩ := looks
  have found : find (needle key) json = some keyPos :=
    (find_eq_some_iff (List.cons_ne_nil _ _)).mpr first
  rw [quotes, found]
  dsimp only
  rw [findFrom_eq_some_iff.mpr colon]
  dsimp only
  rw [findFrom_eq_some_iff.mpr quote]

theorem looks_of_quotes (found : quotes json key = some (quoteStart, quoteEnd)) :
    ∃ colonPos, Looks json key colonPos quoteStart := by
  unfold quotes at found
  split at found
  · cases found
  · next keyPos first =>
      split at found
      · cases found
      · next colonPos colon =>
          split at found
          · cases found
          · next quote =>
              dsimp only at found
              split at found
              · cases found
              · cases found
                exact ⟨colonPos, ⟨keyPos, (find_eq_some_iff (List.cons_ne_nil _ _)).mp first,
                  findFrom_eq_some_iff.mp colon⟩, findFrom_eq_some_iff.mp quote⟩

theorem quotes_eq_some_iff : quotes json key = some (quoteStart, quoteEnd) ↔
    ∃ colonPos, Looks json key colonPos quoteStart ∧ quoteStart < quoteEnd ∧ Ends json quoteEnd ∧
      ∀ j, quoteStart < j → j < quoteEnd → ¬ Ends json j := by
  constructor
  · intro found
    obtain ⟨colonPos, looks⟩ := looks_of_quotes found
    refine ⟨colonPos, looks, ?_⟩
    have inside := (List.getElem?_eq_some_iff.mp looks.quoted.here).1
    obtain ⟨le, none, stop⟩ := @scanQuote_spec json (quoteStart + 1) inside
    rw [looks.quotes_eq] at found
    split at found
    · cases found
    · next ends =>
        cases found
        exact ⟨le, stop (by omega), none⟩
  · rintro ⟨colonPos, looks, behind, ends, first⟩
    have inside := (List.getElem?_eq_some_iff.mp ends.1).1
    rw [looks.quotes_eq, scanQuote_eq behind ends first, if_neg (Nat.not_le.mpr inside)]

/-- Behind the first colon behind the first quoted key there is no quoted text but the
empty one. -/
def Silent (json key : Bytes) : Prop :=
  ∀ colonPos quoteStart, Looks json key colonPos quoteStart →
    json[quoteStart + 1]? = some 34 ∨ ∀ j, quoteStart < j → ¬ Ends json j

/-- An opening quote is no backslash. -/
theorem Looks.ends_next (looks : Looks json key colonPos quoteStart)
    (next : json[quoteStart + 1]? = some 34) : Ends json (quoteStart + 1) := by
  refine ⟨next, ?_⟩
  rw [Nat.add_sub_cancel, looks.quoted.here]
  decide

theorem extract_eq_nil_iff : extractJsonStringField json key = [] ↔ Silent json key := by
  cases found : quotes json key with
  | none =>
      rw [extractJsonStringField, found]
      refine ⟨fun _ => ?_, fun _ => rfl⟩
      intro colonPos quoteStart looks
      apply Or.inr
      intro j behind ends
      -- the first such quote would have been found
      have inside := (List.getElem?_eq_some_iff.mp ends.1).1
      obtain ⟨-, none, -⟩ := @scanQuote_spec json (quoteStart + 1) (by omega)
      rw [looks.quotes_eq] at found
      split at found
      · exact none j behind (by omega) ends
      · cases found
  | some span =>
      obtain ⟨quoteStart, quoteEnd⟩ := span
      obtain ⟨colonPos, looks, behind, ends, first⟩ := quotes_eq_some_iff.mp found
      have inside := (List.getElem?_eq_some_iff.mp ends.1).1
      rw [extractJsonStringField, found]
      dsimp only
      rw [List.take_eq_nil_iff, List.drop_eq_nil_iff]
      constructor
      · intro empty colonPos' quoteStart' looks'
        obtain ⟨-, rfl⟩ := looks.unique looks'
        have next : quoteEnd = quoteStart + 1 := by omega
        exact Or.inl (next ▸ ends.1)
      · intro silent
        rcases silent colonPos quoteStart looks with next | never
        · have := first (quoteStart + 1) (Nat.lt_succ_self _)
          have := looks.ends_next next
          by_contra long
          exact first (quoteStart + 1) (Nat.lt_succ_self _) (by omega) this
        · exact absurd ends (never quoteEnd behind)

end Scanner

/-! ### Members -/

section Members

variable {json key v : Bytes} {before behind : Space} {nameEnd : Nat}

theorem isSpace_of_mem {space : Space} {b : UInt8} (mem : b ∈ space.text) :
    b ≠ 34 ∧ b ≠ 58 := by
  have blank := List.all_eq_true.mp space.blank b mem
  constructor <;> rintro rfl <;> cases blank

/-- White space is neither a quote nor a colon. -/
theorem of_space {space : Space} {i j : Nat} (here : At json i space.text) (start : i ≤ j)
    (stop : j < i + space.text.length) : json[j]? ≠ some 34 ∧ json[j]? ≠ some 58 := by
  have same := here (j - i) (by omega)
  rw [Nat.add_sub_cancel' start] at same
  rw [same]
  constructor <;> intro found
  · exact (isSpace_of_mem (List.mem_of_getElem? found)).1 rfl
  · exact (isSpace_of_mem (List.mem_of_getElem? found)).2 rfl

/-- The two quotes of a member's string are found exactly if the scanner comes to the
member's own colon and the string does not end in a backslash. -/
theorem string_span_iff (here : At json nameEnd
      ([34] ++ (before.text ++ ([58] ++ (behind.text ++ ([34] ++ (v ++ [34])))))))
    (escaped : ∀ j, v[j]? = some (34 : UInt8) → ∃ i, j = i + 1 ∧ v[i]? = some (92 : UInt8))
    (nonempty : v ≠ []) :
    quotes json key = some (nameEnd + 1 + before.text.length + 1 + behind.text.length,
      nameEnd + 1 + before.text.length + 1 + behind.text.length + 1 + v.length) ↔
    (∃ keyPos, FirstAt (needle key) json keyPos ∧
      NextAt 58 json (keyPos + (needle key).length) (nameEnd + 1 + before.text.length)) ∧
    v.getLast? ≠ some 92 := by
  have named : json[nameEnd]? = some 34 := here.left.head
  have spaceBefore : At json (nameEnd + 1) before.text := here.right.left
  have atColon : At json (nameEnd + 1 + before.text.length) [58] := here.right.right.left
  have spaceBehind : At json (nameEnd + 1 + before.text.length + 1) behind.text :=
    here.right.right.right.left
  have value : At json (nameEnd + 1 + before.text.length + 1 + behind.text.length)
      ([34] ++ (v ++ [34])) := here.right.right.right.right
  generalize colon : nameEnd + 1 + before.text.length = c at *
  generalize quote : c + 1 + behind.text.length = q at *
  have opened : json[q]? = some 34 := value.left.head
  have inner : At json (q + 1) v := value.right.left
  have closed : json[q + 1 + v.length]? = some 34 := value.right.right.head
  have size := List.length_pos_of_ne_nil nonempty
  have last : json[q + 1 + v.length - 1]? = v.getLast? := by
    have same := inner (v.length - 1) (by omega)
    rw [List.getLast?_eq_getElem?, ← same]
    congr 1
    omega
  have mark : some (34 : UInt8) ≠ some 58 := by decide
  constructor
  · intro found
    obtain ⟨c', looks, behindStart, ends, -⟩ := quotes_eq_some_iff.mp found
    obtain ⟨⟨keyPos, first, next⟩, quoted⟩ := looks
    have own : c' = c := by
      have le := quoted.le
      rcases Nat.lt_trichotomy c' c with early | same | late
      · by_cases inName : nameEnd < c'
        · exact absurd next.here (of_space spaceBefore inName (by omega)).2
        · by_cases atEnd : c' = nameEnd
          · rw [atEnd] at next
            exact absurd (named.symm.trans next.here) mark
          · exact absurd named (quoted.first nameEnd (by omega) (by omega))
      · exact same
      · exact absurd next.here (of_space spaceBehind late (by omega)).2
    refine ⟨⟨keyPos, first, own ▸ next⟩, ?_⟩
    rw [← last]
    exact ends.2
  · rintro ⟨keyed, unescaped⟩
    apply quotes_eq_some_iff.mpr
    refine ⟨c, ⟨keyed, ⟨by omega, opened, ?_⟩⟩, by omega, ⟨closed, last ▸ unescaped⟩, ?_⟩
    · intro j start stop
      exact (of_space spaceBehind start (by omega)).1
    · -- a quote inside the string has its backslash
      intro j start stop ends
      have same := inner (j - (q + 1)) (by omega)
      rw [Nat.add_sub_cancel' start] at same
      obtain ⟨i, later, backslash⟩ := escaped _ (same ▸ ends.1)
      have prior := inner i (by omega)
      apply ends.2
      rw [← backslash, ← prior]
      congr 1
      omega

end Members

/-! ### Objects -/

section Objects

variable {o : FlatObject} {k : Bytes} {front back : List Member} {m : Member} {s : Str}

/-- Where the colon of the member behind `front` stands. -/
def colonAt (o : FlatObject) (front : List Member) (m : Member) : Nat :=
  (o.before.text ++ (123 :: leading front)).length + m.front.length

/-- Where its value begins. -/
def valueAt (o : FlatObject) (front : List Member) (m : Member) : Nat :=
  colonAt o front m + 1 + m.beforeValue.text.length

/-- The member of this name and its string. -/
structure HasString (o : FlatObject) (k : Bytes) (front : List Member) (m : Member)
    (back : List Member) (s : Str) : Prop where
  member : o.members = front ++ m :: back
  named : m.name.meaning = k
  value : m.value = .str s

/-- The field has no text: there is no such member, its value is no string, or it is the
empty string. -/
def NoText (o : FlatObject) (k : Bytes) : Prop :=
  ∀ front m back s, HasString o k front m back s → s.raw = []

/-- The text is the raw text between the quotes of the member's value, from there and not
from another member; a field without a text has none. -/
structure Follows (o : FlatObject) (k : Bytes) : Prop where
  string : ∀ front m back s, HasString o k front m back s → s.raw ≠ [] →
    extractJsonStringField o.text k = s.raw ∧
    quotes o.text k = some (valueAt o front m, valueAt o front m + 1 + s.raw.length)
  none : NoText o k → extractJsonStringField o.text k = []

/-- The first colon behind the first quoted key is the member's own, and its text does not
end in a backslash; for a field without a text nothing is quoted behind that colon. -/
structure Readable (o : FlatObject) (k : Bytes) : Prop where
  string : ∀ front m back s, HasString o k front m back s → s.raw ≠ [] →
    (∃ keyPos, FirstAt (needle k) o.text keyPos ∧
      NextAt 58 o.text (keyPos + (needle k).length) (colonAt o front m)) ∧
    s.raw.getLast? ≠ some 92
  none : NoText o k → Silent o.text k

/-- The text around a member's colon. -/
theorem HasString.at_text (has : HasString o k front m back s) : ∃ nameEnd,
    At o.text nameEnd ([34] ++ (m.behindName.text ++ ([58] ++ (m.beforeValue.text ++
      ([34] ++ (s.raw ++ [34])))))) ∧
    nameEnd + 1 + m.behindName.text.length = colonAt o front m := by
  refine ⟨((o.before.text ++ (123 :: leading front)) ++
    (m.before.text ++ (34 :: m.name.raw))).length, ?_, ?_⟩
  · have whole : o.text = ((o.before.text ++ (123 :: leading front)) ++
        (m.before.text ++ (34 :: m.name.raw))) ++
        (([34] ++ (m.behindName.text ++ ([58] ++ (m.beforeValue.text ++
          ([34] ++ (s.raw ++ [34])))))) ++
          (m.behind.text ++ (trailing back ++ (125 :: o.behind.text)))) := by
      rw [FlatObject.text_split has.member, Member.text, Member.front, has.value, Value.text]
      simp only [List.append_assoc, List.cons_append, List.nil_append]
    rw [whole]
    exact At.of_append
  · simp only [colonAt, Member.front, List.length_append, List.length_cons]
    omega

theorem HasString.quotes_iff (has : HasString o k front m back s) (nonempty : s.raw ≠ []) :
    quotes o.text k = some (valueAt o front m, valueAt o front m + 1 + s.raw.length) ↔
    (∃ keyPos, FirstAt (needle k) o.text keyPos ∧
      NextAt 58 o.text (keyPos + (needle k).length) (colonAt o front m)) ∧
    s.raw.getLast? ≠ some 92 := by
  obtain ⟨nameEnd, here, colon⟩ := has.at_text
  have span := @string_span_iff o.text k s.raw m.behindName m.beforeValue nameEnd here
    (fun j quote => s.quote_escaped quote) nonempty
  rwa [colon] at span

/-- What stands between the two quotes. -/
theorem HasString.extract_eq (has : HasString o k front m back s)
    (found : quotes o.text k =
      some (valueAt o front m, valueAt o front m + 1 + s.raw.length)) :
    extractJsonStringField o.text k = s.raw := by
  obtain ⟨nameEnd, here, colon⟩ := has.at_text
  have value : At o.text (nameEnd + 1 + m.behindName.text.length + 1 + m.beforeValue.text.length + 1)
      s.raw := here.right.right.right.right.right.left
  rw [colon] at value
  have size : valueAt o front m + 1 + s.raw.length - valueAt o front m - 1 = s.raw.length := by
    omega
  rw [extractJsonStringField, found]
  dsimp only
  rw [size]
  exact value.slice_eq

end Objects

/-- **Reading a field of an object.** The text of a field is the one that JSON gives it
exactly if the scanner's first finds are the field's own. -/
theorem field_follows_iff (o : FlatObject) (k : Bytes) : Follows o k ↔ Readable o k := by
  constructor
  · intro follows
    constructor
    · intro front m back s has nonempty
      exact (has.quotes_iff nonempty).mp (follows.string front m back s has nonempty).2
    · intro noText
      exact extract_eq_nil_iff.mp (follows.none noText)
  · intro readable
    constructor
    · intro front m back s has nonempty
      have found := (has.quotes_iff nonempty).mpr (readable.string front m back s has nonempty)
      exact ⟨has.extract_eq found, found⟩
    · intro noText
      exact extract_eq_nil_iff.mpr (readable.none noText)

/-! ### A member without a string -/

def noSpace : Space := ⟨[], rfl⟩

/-- A string without escapes. -/
def plainStr (text : Bytes) (valid : (text.map StrUnit.plain).all StrUnit.valid) : Str :=
  ⟨text.map StrUnit.plain, valid⟩

/-- A member without white space. -/
def packed (name : Str) (value : Value) : Member :=
  { before := noSpace, name, behindName := noSpace, beforeValue := noSpace, value,
    behind := noSpace }

/-- `auth_token` is null, and behind it stands `client_private_key` with the string `ab`. -/
def unsetToken : FlatObject :=
  { before := noSpace
    members :=
      [packed (plainStr (ascii "auth_token") (by decide)) (.literal (ascii "null") (by decide)),
        packed (plainStr (ascii "client_private_key") (by decide))
          (.str (plainStr (ascii "ab") (by decide)))]
    inside := noSpace
    behind := noSpace
    distinct := by decide }

theorem unsetToken_noText : NoText unsetToken (ascii "auth_token") := by
  intro front m back s has
  obtain ⟨member, named, value⟩ := has
  match front, member with
  | [], member =>
      obtain ⟨rfl, -⟩ := List.cons.inj member
      cases value
  | [_], member =>
      obtain ⟨-, rest⟩ := List.cons.inj member
      obtain ⟨rfl, -⟩ := List.cons.inj rest
      exact absurd named (by decide)
  | _ :: _ :: front, member =>
      obtain ⟨-, rest⟩ := List.cons.inj member
      obtain ⟨-, rest⟩ := List.cons.inj rest
      exact absurd rest.symm (List.append_ne_nil_of_right_ne_nil _ (List.cons_ne_nil _ _))

/-- The name of the next member is returned as the token. -/
theorem null_token_misread :
    extractJsonStringField unsetToken.text (ascii "auth_token") = ascii "client_private_key" ∧
    ¬ ∀ o k, 34 ∉ k → 92 ∉ k → Follows o k := by
  have found : quotes unsetToken.text (ascii "auth_token") = some (19, 38) := by
    apply quotes_eq_some_iff.mpr
    have colon : NextAt 58 unsetToken.text (1 + (needle (ascii "auth_token")).length) 13 := by
      refine ⟨by decide, by decide, ?_⟩
      intro j start stop
      change 13 ≤ j at start
      omega
    have quote : NextAt 34 unsetToken.text (13 + 1) 19 := by
      refine ⟨by decide, by decide, ?_⟩
      have none : ∀ j < 19, 13 + 1 ≤ j → unsetToken.text[j]? ≠ some 34 := by decide
      intro j start stop
      exact none j stop start
    refine ⟨13, ⟨⟨1, ⟨by decide, by decide⟩, colon⟩, quote⟩, by decide, ⟨by decide, by decide⟩, ?_⟩
    have none : ∀ j < 38, 19 < j → unsetToken.text[j]? ≠ some 34 := by decide
    intro j start stop ends
    exact none j stop start ends.1
  have read : extractJsonStringField unsetToken.text (ascii "auth_token") =
      ascii "client_private_key" := by
    rw [extractJsonStringField, found]
    decide
  refine ⟨read, ?_⟩
  intro follows
  have empty := (follows unsetToken (ascii "auth_token") (by decide) (by decide)).none
    unsetToken_noText
  rw [read] at empty
  revert empty
  decide

end TonTunnel.JsonField
