import TonTunnel.Egress.Policy
import TonTunnel.Lib.Regex
import TonTunnel.Lib.WhiteSpace

/-!
The configuration file of the egress node: `config.cpp`.

Each field is looked up with a regular expression in the text of the file, and the numbers
go through `stoul` and casts to 32 and 16 bits. What the expressions find is said without
them: the first place where the quoted key, a colon and digits stand (`first_given_iff`) or
a list in brackets (`first_list_iff`), and the literals of such a list (`items_of_literals`).
The configuration has these numbers and ports exactly if each number fits its field, no
literal of the list becomes a port by the cast, and at least one is a port (`unaltered_iff`):
a list without ports is replaced by the default ports.
-/

namespace TonTunnel.ConfigFile

open TonTunnel

/-- `std::out_of_range` of `std::stoul`. -/
inductive Thrown where
  | outOfRange
  deriving DecidableEq, Repr

/-! ### Extraction -/

/-- `\s`. -/
def isspace (c : UInt8) : Bool := WhiteSpace.isspace c.toNat

/-- `[0-9]`. -/
def isdigit (c : UInt8) : Bool := 48 ≤ c && c ≤ 57

def quoted (key : Bytes) : Bytes := 34 :: key ++ [34]

/-- `"key"\s*:\s*`, and then the value. -/
def field (key : Bytes) (value : Regex UInt8) : Regex UInt8 :=
  .word (quoted key) (.seq (.many isspace 0) (.word [58] (.seq (.many isspace 0) value)))

/-- A group of characters other than the last one, and the last one. -/
def upTo (last : UInt8) : Regex UInt8 :=
  .seq (.group (.many (· ≠ last) 0)) (.one (· = last))

/-- `m[1].str()`. -/
def group1 (way : Regex.Way UInt8) : Bytes := way.1.headD []

def extractString (src key fallback : Bytes) : Bytes :=
  match Regex.search (field key (.word [34] (upTo 34))) src with
  | some m => group1 m
  | none => fallback

/-- The value of a row of digits. -/
def valueOf (digits : Bytes) : Nat :=
  digits.foldl (fun acc d => acc * 10 + (d.toNat - 48)) 0

/-- `std::stoul` on digits, with an `unsigned long` of 64 bits. -/
def stoul (digits : Bytes) : Except Thrown UInt64 :=
  if valueOf digits < 2 ^ 64 then .ok (valueOf digits).toUInt64 else .error .outOfRange

def number : Regex UInt8 := .group (.many isdigit 1)

def extractUint (src key : Bytes) (fallback : UInt32) : Except Thrown UInt32 :=
  match Regex.search (field key number) src with
  | some m => do return (← stoul (group1 m)).toUInt32
  | none => .ok fallback

def extractBool (src key : Bytes) (fallback : Bool) : Bool :=
  match Regex.search (field key (.group (.alt (.word (ascii "true") .empty)
      (.word (ascii "false") .empty)))) src with
  | some m => group1 m = ascii "true"
  | none => fallback

/-- The items of the list behind the key, found by `itemRe`. -/
def listItems (src key : Bytes) (itemRe : Regex UInt8) : List Bytes :=
  match Regex.search (field key (.word [91] (upTo 93))) src with
  | some listMatch => (Regex.searchAll itemRe (group1 listMatch)).map group1
  | none => []

def extractStringArray (src key : Bytes) : List Bytes :=
  listItems src key (.word [34] (upTo 34))

/-- The loop of `extractUint16Array`. -/
def portLoop (out : List UInt16) : List Bytes → Except Thrown (List UInt16)
  | [] => .ok out
  | item :: items => do
      let value := (← stoul item).toUInt32
      portLoop (if value ≤ 65535 then out ++ [value.toUInt16] else out) items

def extractUint16Array (src key : Bytes) : Except Thrown (List UInt16) :=
  portLoop [] (listItems src key number)

/-- `loadConfigOrThrow`, for the text of the file. -/
def loadConfigOrThrow (raw : Bytes) : Except Thrown Config := do
  let cfg : Config := {}
  let listenPort ← extractUint raw (ascii "listen_port") cfg.listenPort.toUInt32
  let maxStreams ← extractUint raw (ascii "max_streams") cfg.maxStreams
  let idleTimeoutSec ← extractUint raw (ascii "idle_timeout_sec") cfg.idleTimeoutSec
  let maxPayloadBytes ← extractUint raw (ascii "max_payload_bytes") cfg.egress.maxPayloadBytes
  let ports ← extractUint16Array raw (ascii "allowed_ports")
  return {
    transportBackend := extractString raw (ascii "transport_backend") cfg.transportBackend
    adnlLibraryPath := extractString raw (ascii "adnl_backend_library")
      (extractString raw (ascii "adnl_library_path") cfg.adnlLibraryPath)
    adnlListenAddress := extractString raw (ascii "adnl_listen_address") cfg.adnlListenAddress
    privateKey := extractString raw (ascii "private_key") []
    listenPort := listenPort.toUInt16
    maxStreams
    idleTimeoutSec
    allowedClients := extractStringArray raw (ascii "allowed_clients")
    authToken := extractString raw (ascii "auth_token") []
    authRequired := extractBool raw (ascii "auth_required") cfg.authRequired
    egress :=
      { enabled := extractBool raw (ascii "enabled") cfg.egress.enabled
        maxPayloadBytes
        allowedPorts := if ports ≠ [] then ports else cfg.egress.allowedPorts
        blockPrivateIps := extractBool raw (ascii "block_private_ips") cfg.egress.blockPrivateIps } }

/-! ### What the file gives -/

def Blank (text : Bytes) : Prop := ∀ c ∈ text, isspace c = true

/-- The text begins with the quoted key, a colon and the value, with white space between. -/
def FieldAt (key text value : Bytes) : Prop :=
  ∃ before after, Blank before ∧ Blank after ∧
    text = quoted key ++ (before ++ (58 :: (after ++ value)))

/-- The text begins with the key and these digits, and no more. -/
def Given (key text digits : Bytes) : Prop :=
  ∃ rest, FieldAt key text (digits ++ rest) ∧ digits ≠ [] ∧ digits.all isdigit ∧
    ∀ c ∈ rest.head?, isdigit c = false

/-- The text begins with the key and a list with this body. -/
def GivenList (key text body : Bytes) : Prop :=
  ∃ rest, FieldAt key text (91 :: body ++ (93 :: rest)) ∧ 93 ∉ body

/-- The first place of the file where it is given. -/
def First (given : Bytes → Bytes → Prop) (raw value : Bytes) : Prop :=
  ∃ i, given (raw.drop i) value ∧ ∀ j < i, ∀ other, ¬ given (raw.drop j) other

/-- The body of a list of decimal literals. -/
inductive Literals : Bytes → List Bytes → Prop
  | nil {space : Bytes} (blank : Blank space) : Literals space []
  | single {before digits after : Bytes} (front : Blank before) (nonempty : digits ≠ [])
      (decimal : digits.all isdigit) (back : Blank after) :
      Literals (before ++ (digits ++ after)) [digits]
  | cons {before digits after body : Bytes} {more : List Bytes} (front : Blank before)
      (nonempty : digits ≠ []) (decimal : digits.all isdigit) (back : Blank after)
      (further : more ≠ []) (rest : Literals body more) :
      Literals (before ++ (digits ++ (after ++ (44 :: body)))) (digits :: more)

/-- The literals that are ports. -/
def listed (literals : List Bytes) : List UInt16 :=
  (literals.filter fun digits => valueOf digits ≤ 65535).map fun digits =>
    (valueOf digits).toUInt16

/-! ### Matches -/

section Matches

variable {key text v : Bytes} {value r : Regex UInt8}

theorem dropWhile_of_head {p : UInt8 → Bool} (head : ∀ c ∈ v.head?, p c = false) :
    v.dropWhile p = v ∧ v.takeWhile p = [] := by
  cases v with
  | nil => exact ⟨rfl, rfl⟩
  | cons c rest =>
      have no : ¬ p c = true := by
        rw [head c rfl]
        exact Bool.false_ne_true
      exact ⟨List.dropWhile_cons_of_neg no, List.takeWhile_cons_of_neg no⟩

theorem head_dropWhile {p : UInt8 → Bool} : ∀ c ∈ (v.dropWhile p).head?, p c = false := by
  intro c mem
  have no := List.head?_dropWhile_not p v
  rw [Option.mem_def.mp mem] at no
  exact no

/-- The value behind the key, the colon and the white space. -/
def afterField (key text : Bytes) : Option Bytes :=
  if quoted key <+: text then
    match (text.drop (quoted key).length).dropWhile isspace with
    | [] => none
    | c :: v => if c = 58 then some (v.dropWhile isspace) else none
  else none

/-- White space is where the runs of `\s*` end, so there is one way to the value. -/
theorem ways_field (disjoint : ∀ c rest, isspace c = true → value.ways (c :: rest) = []) :
    (field key value).ways text =
      match afterField key text with
      | some v => value.ways v
      | none => [] := by
  have colon (c : UInt8) (rest : Bytes) (space : isspace c = true) :
      (Regex.word [58] (.seq (.many isspace 0) value)).ways (c :: rest) = [] := by
    rw [Regex.ways_word, if_neg]
    intro here
    obtain ⟨rfl, -⟩ := List.cons_prefix_cons.mp here
    cases space
  rw [field, Regex.ways_word, afterField]
  split
  · rw [Regex.ways_many_seq colon, if_pos (Nat.zero_le _), Regex.ways_word]
    cases (text.drop (quoted key).length).dropWhile isspace with
    | nil => rw [if_neg (by simp)]
    | cons c rest =>
        dsimp only
        by_cases same : c = 58
        · have here : [58] <+: c :: rest := List.cons_prefix_cons.mpr ⟨same.symm, List.nil_prefix⟩
          rw [if_pos same, if_pos here]
          exact (Regex.ways_many_seq disjoint).trans (if_pos (Nat.zero_le _))
        · rw [if_neg same, if_neg]
          intro here
          exact same (List.cons_prefix_cons.mp here).1.symm
  · rfl

theorem afterField_eq_some_iff : afterField key text = some v ↔
    FieldAt key text v ∧ ∀ c ∈ v.head?, isspace c = false := by
  constructor
  · intro found
    unfold afterField at found
    split at found
    · next here =>
        obtain ⟨rest, rfl⟩ := here
        rw [List.drop_left] at found
        split at found
        · cases found
        · next c value colon =>
            split at found
            · next same =>
                cases found
                refine ⟨⟨rest.takeWhile isspace, value.takeWhile isspace, ?_, ?_, ?_⟩, head_dropWhile⟩
                · intro c mem
                  exact List.mem_takeWhile_imp mem
                · intro c mem
                  exact List.mem_takeWhile_imp mem
                · rw [List.takeWhile_append_dropWhile, ← same, ← colon,
                    List.takeWhile_append_dropWhile]
            · cases found
    · cases found
  · rintro ⟨⟨before, after, blankBefore, blankAfter, rfl⟩, head⟩
    have colon : ¬ isspace 58 = true := by decide
    rw [afterField, if_pos (List.prefix_append _ _), List.drop_left,
      List.dropWhile_append_of_pos blankBefore, List.dropWhile_cons_of_neg colon]
    dsimp only
    rw [if_pos rfl, List.dropWhile_append_of_pos blankAfter, (dropWhile_of_head head).1]

/-- The first match is the first place that gives a value, if matches and values go
together. -/
theorem first_iff {given : Bytes → Bytes → Prop} {raw : Bytes}
    (sound : ∀ text way, r.matchAt text = some way → given text (group1 way))
    (complete : ∀ text v, given text v → ∃ way, r.matchAt text = some way ∧ group1 way = v) :
    First given raw v ↔ ∃ way, r.search raw = some way ∧ group1 way = v := by
  constructor
  · rintro ⟨i, here, first⟩
    obtain ⟨way, found, same⟩ := complete _ _ here
    refine ⟨way, Regex.search_eq_some_iff.mpr ⟨i, found, ?_⟩, same⟩
    intro j before
    cases other : r.matchAt (raw.drop j) with
    | none => rfl
    | some way' => exact absurd (sound _ _ other) (first j before _)
  · rintro ⟨way, found, rfl⟩
    obtain ⟨i, here, first⟩ := Regex.search_eq_some_iff.mp found
    refine ⟨i, sound _ _ here, ?_⟩
    intro j before other given
    obtain ⟨way', found', -⟩ := complete _ _ given
    rw [first j before] at found'
    cases found'

end Matches

section Numbers

variable {key text : Bytes} {way : Regex.Way UInt8}

theorem isspace_of_isdigit {c : UInt8} (digit : isdigit c = true) : isspace c = false := by
  have all : ∀ n < 256, isdigit n.toUInt8 = true → isspace n.toUInt8 = false := by
    decide +kernel
  have same : c.toNat.toUInt8 = c := UInt8.ofNat_toNat
  have value := all c.toNat c.toNat_lt
  rw [same] at value
  exact value digit

theorem number_of_space (c : UInt8) (rest : Bytes) (space : isspace c = true) :
    number.ways (c :: rest) = [] := by
  have no : isdigit c = false := by
    by_contra digit
    rw [Bool.not_eq_false] at digit
    rw [isspace_of_isdigit digit] at space
    cases space
  simp [number, Regex.ways, Regex.manyWays, no]

theorem matchAt_number_iff : (field key number).matchAt text = some way ↔
    ∃ digits rest, way = ([digits], rest) ∧ FieldAt key text (digits ++ rest) ∧ digits ≠ [] ∧
      digits.all isdigit ∧ ∀ c ∈ rest.head?, isdigit c = false := by
  rw [Regex.matchAt, ways_field number_of_space]
  constructor
  · intro found
    cases after : afterField key text with
    | none =>
        rw [after] at found
        cases found
    | some v =>
        rw [after] at found
        dsimp only at found
        rw [number, Regex.head_ways_group] at found
        split at found
        · next run =>
            cases found
            refine ⟨_, _, rfl, ?_, List.ne_nil_of_length_pos run, List.all_takeWhile, head_dropWhile⟩
            rw [List.takeWhile_append_dropWhile]
            exact (afterField_eq_some_iff.mp after).1
        · cases found
  · rintro ⟨digits, rest, rfl, here, nonempty, decimal, stop⟩
    have all := List.all_eq_true.mp decimal
    have head : ∀ c ∈ (digits ++ rest).head?, isspace c = false := by
      intro c mem
      cases digits with
      | nil => exact absurd rfl nonempty
      | cons d more =>
          cases mem
          exact isspace_of_isdigit (all c List.mem_cons_self)
    have size : 1 ≤ digits.length := List.length_pos_of_ne_nil nonempty
    have run : (digits ++ rest).takeWhile isdigit = digits := by
      rw [List.takeWhile_append_of_pos all, (dropWhile_of_head stop).2, List.append_nil]
    have tail : (digits ++ rest).dropWhile isdigit = rest := by
      rw [List.dropWhile_append_of_pos all, (dropWhile_of_head stop).1]
    rw [afterField_eq_some_iff.mpr ⟨here, head⟩]
    dsimp only
    rw [number, Regex.head_ways_group, run, tail, if_pos size]

/-- What is searched for a number. -/
theorem first_given_iff {raw digits : Bytes} : First (Given key) raw digits ↔
    ∃ way, (field key number).search raw = some way ∧ group1 way = digits := by
  apply first_iff
  · intro text way found
    obtain ⟨digits, rest, rfl, here, nonempty, decimal, stop⟩ := matchAt_number_iff.mp found
    exact ⟨rest, here, nonempty, decimal, stop⟩
  · rintro text digits ⟨rest, here, nonempty, decimal, stop⟩
    exact ⟨([digits], rest),
      matchAt_number_iff.mpr ⟨digits, rest, rfl, here, nonempty, decimal, stop⟩, rfl⟩

end Numbers

section Lists

variable {key text t : Bytes} {last : UInt8} {way : Regex.Way UInt8}

theorem ways_upTo : (upTo last).ways t =
    match t.dropWhile (· ≠ last) with
    | [] => []
    | _ :: rest => [([t.takeWhile (· ≠ last)], rest)] := by
  have disjoint (c : UInt8) (rest : Bytes) (other : decide (c ≠ last) = true) :
      (Regex.one (· = last)).ways (c :: rest) = [] := by
    simp only [Regex.ways, ite_eq_right_iff]
    intro same
    simp_all
  rw [upTo, Regex.ways_group_seq disjoint, if_pos (Nat.zero_le _)]
  have stop := @head_dropWhile t (· ≠ last)
  cases behind : t.dropWhile (· ≠ last) with
  | nil => rfl
  | cons c rest =>
      rw [behind] at stop
      have same : c = last := by simpa using stop c rfl
      simp [Regex.ways, same]

theorem matchAt_list_iff : (field key (.word [91] (upTo 93))).matchAt text = some way ↔
    ∃ body rest, way = ([body], rest) ∧ FieldAt key text (91 :: body ++ (93 :: rest)) ∧
      93 ∉ body := by
  have space (c : UInt8) (rest : Bytes) (space : isspace c = true) :
      (Regex.word [91] (upTo 93)).ways (c :: rest) = [] := by
    rw [Regex.ways_word, if_neg]
    intro here
    obtain ⟨rfl, -⟩ := List.cons_prefix_cons.mp here
    cases space
  rw [Regex.matchAt, ways_field space]
  constructor
  · intro found
    cases after : afterField key text with
    | none =>
        rw [after] at found
        cases found
    | some v =>
        rw [after] at found
        dsimp only at found
        rw [Regex.ways_word] at found
        split at found
        · next opens =>
            obtain ⟨t, rfl⟩ := opens
            rw [List.drop_left, ways_upTo] at found
            have stop := @head_dropWhile t (· ≠ 93)
            cases behind : t.dropWhile (· ≠ 93) with
            | nil =>
                rw [behind] at found
                cases found
            | cons c rest =>
                rw [behind] at found stop
                cases found
                obtain rfl : c = 93 := by simpa using stop c rfl
                refine ⟨_, rest, rfl, ?_, ?_⟩
                · rw [← behind, List.cons_append, List.takeWhile_append_dropWhile]
                  exact (afterField_eq_some_iff.mp after).1
                · intro mem
                  simpa using List.mem_takeWhile_imp mem
        · cases found
  · rintro ⟨body, rest, rfl, here, clean⟩
    have head : ∀ c ∈ (91 :: body ++ 93 :: rest).head?, isspace c = false := by
      rintro c ⟨⟩
      decide
    have all : ∀ c ∈ body, decide (c ≠ 93) = true := by
      intro c mem
      exact decide_eq_true (fun same => clean (same ▸ mem))
    have run : (body ++ 93 :: rest).takeWhile (· ≠ 93) = body := by
      rw [List.takeWhile_append_of_pos all]
      simp
    have tail : (body ++ 93 :: rest).dropWhile (· ≠ 93) = 93 :: rest := by
      rw [List.dropWhile_append_of_pos all]
      simp
    have opens : [91] <+: 91 :: body ++ 93 :: rest := List.cons_prefix_cons.mpr ⟨rfl, List.nil_prefix⟩
    rw [afterField_eq_some_iff.mpr ⟨here, head⟩]
    dsimp only
    rw [Regex.ways_word, if_pos opens]
    change ((upTo 93).ways (body ++ 93 :: rest)).head? = _
    rw [ways_upTo, run, tail]
    rfl

theorem first_list_iff {raw body : Bytes} : First (GivenList key) raw body ↔
    ∃ way, (field key (.word [91] (upTo 93))).search raw = some way ∧ group1 way = body := by
  apply first_iff
  · intro text way found
    obtain ⟨body, rest, rfl, here, clean⟩ := matchAt_list_iff.mp found
    exact ⟨rest, here, clean⟩
  · rintro text body ⟨rest, here, clean⟩
    exact ⟨([body], rest), matchAt_list_iff.mpr ⟨body, rest, rfl, here, clean⟩, rfl⟩

end Lists

/-! ### Numbers and ports -/

section Values

variable {key raw digits : Bytes}

/-- What the casts make of a literal that `stoul` takes. -/
theorem toNat_stoul {value : UInt64} (read : stoul digits = .ok value) :
    value.toUInt32.toNat = valueOf digits % 2 ^ 32 := by
  unfold stoul at read
  split at read
  · next small =>
      cases read
      have whole : (valueOf digits).toUInt64.toNat = valueOf digits :=
        UInt64.toNat_ofNat_of_lt small
      rw [UInt64.toNat_toUInt32, whole]
  · cases read

theorem toNat_extractUint {fallback value : UInt32} (given : First (Given key) raw digits)
    (read : extractUint raw key fallback = .ok value) : value.toNat = valueOf digits % 2 ^ 32 := by
  obtain ⟨way, found, rfl⟩ := first_given_iff.mp given
  rw [extractUint, found] at read
  dsimp only at read
  cases wide : stoul (group1 way) with
  | error thrown =>
      rw [wide] at read
      cases read
  | ok value =>
      rw [wide] at read
      cases read
      exact toNat_stoul wide

/-- The port that a literal comes to. -/
def portOf (digits : Bytes) : Option UInt16 :=
  if valueOf digits % 2 ^ 32 ≤ 65535 then some (valueOf digits % 2 ^ 32).toUInt16 else none

theorem portLoop_eq {out ports : List UInt16} {items : List Bytes}
    (read : portLoop out items = .ok ports) : ports = out ++ items.filterMap portOf := by
  induction items generalizing out with
  | nil =>
      cases read
      rw [List.filterMap_nil, List.append_nil]
  | cons item items ih =>
      rw [portLoop] at read
      cases wide : stoul item with
      | error thrown =>
          rw [wide] at read
          cases read
      | ok value =>
          rw [wide] at read
          have value32 := toNat_stoul wide
          have same : value.toUInt32 ≤ 65535 ↔ valueOf item % 2 ^ 32 ≤ 65535 := by
            rw [UInt32.le_iff_toNat_le, value32]
            rfl
          have port : value.toUInt32.toUInt16 = (valueOf item % 2 ^ 32).toUInt16 := by
            rw [← value32]
            rfl
          rw [ih read, List.filterMap_cons, portOf]
          by_cases small : value.toUInt32 ≤ 65535
          · rw [if_pos small, if_pos (same.mp small), port, List.append_assoc]
            rfl
          · rw [if_neg small, if_neg (fun le => small (same.mpr le))]

end Values

section Items

variable {front digits tail : Bytes}

theorem isdigit_of_blank (blank : Blank front) : ∀ c ∈ front, isdigit c = false := by
  intro c mem
  by_contra digit
  rw [Bool.not_eq_false] at digit
  have space := blank c mem
  rw [isspace_of_isdigit digit] at space
  cases space

theorem matchAt_number_none (head : ∀ c ∈ tail.head?, isdigit c = false) :
    number.matchAt tail = none := by
  rw [Regex.matchAt, number, Regex.head_ways_group, (dropWhile_of_head head).2]
  rfl

theorem search_number_append (clean : ∀ c ∈ front, isdigit c = false) :
    number.search (front ++ tail) = number.search tail := by
  apply Regex.search_append
  intro j before
  apply matchAt_number_none
  intro c mem
  rw [List.drop_append_of_le_length before.le, List.head?_append_of_ne_nil _ (by simpa using before)] at mem
  exact clean c (List.mem_of_mem_drop (List.mem_of_mem_head? mem))

theorem searchAll_number_none (clean : ∀ c ∈ front, isdigit c = false) :
    number.searchAll front = [] := by
  apply Regex.searchAll_of_none
  have skipped := @search_number_append front [] clean
  rw [List.append_nil] at skipped
  rw [skipped]
  rfl

theorem searchAll_number_append (clean : ∀ c ∈ front, isdigit c = false) (nonempty : digits ≠ [])
    (decimal : digits.all isdigit) (stop : ∀ c ∈ tail.head?, isdigit c = false) :
    number.searchAll (front ++ (digits ++ tail)) = ([digits], tail) :: number.searchAll tail := by
  have all := List.all_eq_true.mp decimal
  have size : 1 ≤ digits.length := List.length_pos_of_ne_nil nonempty
  have here : number.matchAt (digits ++ tail) = some ([digits], tail) := by
    rw [Regex.matchAt, number, Regex.head_ways_group, List.takeWhile_append_of_pos all,
      List.dropWhile_append_of_pos all, (dropWhile_of_head stop).1, (dropWhile_of_head stop).2,
      List.append_nil, if_pos size]
  have found : number.search (front ++ (digits ++ tail)) = some ([digits], tail) := by
    rw [search_number_append clean]
    exact Regex.search_eq_some_iff.mpr ⟨0, here, fun j before => absurd before (Nat.not_lt_zero j)⟩
  apply Regex.searchAll_of_some found
  simp only [List.length_append]
  omega

/-- The items of a list of literals are the literals, also behind other characters. -/
theorem items_of_literals {body : Bytes} {literals : List Bytes} (list : Literals body literals)
    (clean : ∀ c ∈ front, isdigit c = false) :
    (number.searchAll (front ++ body)).map group1 = literals := by
  induction list generalizing front with
  | nil blank =>
      rw [searchAll_number_none]
      · rfl
      · exact List.forall_mem_append.mpr ⟨clean, isdigit_of_blank blank⟩
  | @single before digits after blank nonempty decimal back =>
      have lead : ∀ c ∈ front ++ before, isdigit c = false :=
        List.forall_mem_append.mpr ⟨clean, isdigit_of_blank blank⟩
      have stop := isdigit_of_blank back
      rw [← List.append_assoc, searchAll_number_append lead nonempty decimal
        (fun c mem => stop c (List.mem_of_mem_head? mem)), searchAll_number_none stop]
      rfl
  | @cons before digits after body more blank nonempty decimal back further rest ih =>
      have lead : ∀ c ∈ front ++ before, isdigit c = false :=
        List.forall_mem_append.mpr ⟨clean, isdigit_of_blank blank⟩
      have between : ∀ c ∈ after ++ [44], isdigit c = false := by
        refine List.forall_mem_append.mpr ⟨isdigit_of_blank back, ?_⟩
        intro c comma
        rw [List.mem_singleton.mp comma]
        rfl
      have split : after ++ 44 :: body = (after ++ [44]) ++ body := by simp
      have stop : ∀ c ∈ ((after ++ [44]) ++ body).head?, isdigit c = false := by
        intro c mem
        rw [List.head?_append_of_ne_nil _ (by simp)] at mem
        exact between c (List.mem_of_mem_head? mem)
      rw [← List.append_assoc, split, searchAll_number_append lead nonempty decimal stop,
        List.map_cons, ih between]
      rfl

end Items

section Ports

variable {literals : List Bytes}

/-- The cast does not make a port of a literal. -/
def Sound (digits : Bytes) : Prop :=
  2 ^ 32 ≤ valueOf digits → 65535 < valueOf digits % 2 ^ 32

theorem listed_cons {digits : Bytes} : listed (digits :: literals) =
    if valueOf digits ≤ 65535 then (valueOf digits).toUInt16 :: listed literals
    else listed literals := by
  simp only [listed, List.filter_cons, decide_eq_true_eq]
  split <;> rfl

theorem portOf_of_le {digits : Bytes} (port : valueOf digits ≤ 65535) :
    portOf digits = some (valueOf digits).toUInt16 := by
  have small : valueOf digits % 2 ^ 32 = valueOf digits := Nat.mod_eq_of_lt (by omega)
  rw [portOf, small, if_pos port]

theorem portOf_eq_none_iff {digits : Bytes} (large : 65535 < valueOf digits) :
    portOf digits = none ↔ Sound digits := by
  unfold portOf Sound
  split
  · next port =>
      simp only [reduceCtorEq, false_iff]
      intro sound
      have wide : 2 ^ 32 ≤ valueOf digits := by
        by_contra narrow
        rw [Nat.mod_eq_of_lt (by omega)] at port
        omega
      exact absurd port (by have := sound wide; omega)
  · next none =>
      simp only [true_iff]
      intro _
      omega

theorem filterMap_of_sound (sound : ∀ digits ∈ literals, Sound digits) :
    literals.filterMap portOf = listed literals := by
  induction literals with
  | nil => rfl
  | cons digits literals ih =>
      have rest := ih (fun other mem => sound other (List.mem_cons_of_mem _ mem))
      rw [listed_cons]
      split
      · next port => rw [List.filterMap_cons_some (portOf_of_le port), rest]
      · next large =>
          have none := (portOf_eq_none_iff (by omega)).mpr (sound digits List.mem_cons_self)
          rw [List.filterMap_cons_none none, rest]

theorem length_listed_le : (listed literals).length ≤ (literals.filterMap portOf).length := by
  induction literals with
  | nil => exact Nat.le_refl 0
  | cons digits literals ih =>
      rw [listed_cons]
      split
      · next port =>
          rw [List.filterMap_cons_some (portOf_of_le port)]
          simpa using ih
      · cases port : portOf digits with
        | none =>
            rw [List.filterMap_cons_none port]
            exact ih
        | some port' =>
            rw [List.filterMap_cons_some port, List.length_cons]
            exact Nat.le_succ_of_le ih

/-- A literal that the cast makes a port is one more than the file lists. -/
theorem length_listed_lt (unsound : ∃ digits ∈ literals, ¬ Sound digits) :
    (listed literals).length < (literals.filterMap portOf).length := by
  obtain ⟨wrong, mem, unsound⟩ := unsound
  have large : 65535 < valueOf wrong := by
    by_contra port
    exact unsound (fun wide => by omega)
  induction literals with
  | nil => cases mem
  | cons digits literals ih =>
      rw [listed_cons]
      obtain rfl | mem := List.mem_cons.mp mem
      · obtain ⟨port, some⟩ := Option.ne_none_iff_exists'.mp
          (fun none => unsound ((portOf_eq_none_iff large).mp none))
        rw [if_neg (by omega), List.filterMap_cons_some some, List.length_cons]
        exact Nat.lt_succ_of_le length_listed_le
      · split
        · next port =>
            rw [List.filterMap_cons_some (portOf_of_le port)]
            simpa using ih mem
        · cases port : portOf digits with
          | none =>
              rw [List.filterMap_cons_none port]
              exact ih mem
          | some port' =>
              rw [List.filterMap_cons_some port, List.length_cons]
              exact Nat.lt_succ_of_lt (ih mem)

end Ports

/-! ### Loading -/

/-- The numbers and the ports are those that the file gives. -/
structure Unaltered (raw : Bytes) (cfg : Config) : Prop where
  listenPort : ∀ digits, First (Given (ascii "listen_port")) raw digits →
    cfg.listenPort.toNat = valueOf digits
  maxStreams : ∀ digits, First (Given (ascii "max_streams")) raw digits →
    cfg.maxStreams.toNat = valueOf digits
  idleTimeoutSec : ∀ digits, First (Given (ascii "idle_timeout_sec")) raw digits →
    cfg.idleTimeoutSec.toNat = valueOf digits
  maxPayloadBytes : ∀ digits, First (Given (ascii "max_payload_bytes")) raw digits →
    cfg.egress.maxPayloadBytes.toNat = valueOf digits
  allowedPorts : ∀ body literals, First (GivenList (ascii "allowed_ports")) raw body →
    Literals body literals → cfg.egress.allowedPorts = listed literals

/-- Every number fits its field. A list has a port, and no literal that the cast would make
one. -/
structure InRange (raw : Bytes) : Prop where
  listenPort : ∀ digits, First (Given (ascii "listen_port")) raw digits → valueOf digits < 2 ^ 16
  maxStreams : ∀ digits, First (Given (ascii "max_streams")) raw digits → valueOf digits < 2 ^ 32
  idleTimeoutSec : ∀ digits, First (Given (ascii "idle_timeout_sec")) raw digits →
    valueOf digits < 2 ^ 32
  maxPayloadBytes : ∀ digits, First (Given (ascii "max_payload_bytes")) raw digits →
    valueOf digits < 2 ^ 32
  allowedPorts : ∀ body literals, First (GivenList (ascii "allowed_ports")) raw body →
    Literals body literals →
      (∀ digits ∈ literals, Sound digits) ∧ ∃ digits ∈ literals, valueOf digits ≤ 65535

section Loading

variable {raw : Bytes} {cfg : Config}

theorem bind_eq_ok {α β : Type} {x : Except Thrown α} {f : α → Except Thrown β} {b : β}
    (done : (x >>= f) = .ok b) : ∃ a, x = .ok a ∧ f a = .ok b := by
  cases x with
  | error thrown => cases done
  | ok a => exact ⟨a, rfl, done⟩

/-- What is read for a configuration. -/
theorem loadConfigOrThrow_ok (accepted : loadConfigOrThrow raw = .ok cfg) :
    (∃ value, extractUint raw (ascii "listen_port") 30303 = .ok value ∧
      cfg.listenPort = value.toUInt16) ∧
    extractUint raw (ascii "max_streams") 100 = .ok cfg.maxStreams ∧
    extractUint raw (ascii "idle_timeout_sec") 60 = .ok cfg.idleTimeoutSec ∧
    extractUint raw (ascii "max_payload_bytes") 65536 = .ok cfg.egress.maxPayloadBytes ∧
    ∃ ports, extractUint16Array raw (ascii "allowed_ports") = .ok ports ∧
      cfg.egress.allowedPorts = if ports ≠ [] then ports else [80, 443, 8080, 8443, 853] := by
  obtain ⟨listenPort, readPort, accepted⟩ := bind_eq_ok accepted
  obtain ⟨maxStreams, readStreams, accepted⟩ := bind_eq_ok accepted
  obtain ⟨idleTimeoutSec, readIdle, accepted⟩ := bind_eq_ok accepted
  obtain ⟨maxPayloadBytes, readPayload, accepted⟩ := bind_eq_ok accepted
  obtain ⟨ports, readPorts, accepted⟩ := bind_eq_ok accepted
  cases accepted
  exact ⟨⟨listenPort, readPort, rfl⟩, readStreams, readIdle, readPayload, ports, readPorts, rfl⟩

/-- A number is kept if it fits. -/
theorem kept_iff {key : Bytes} {read bound : Nat}
    (cast : ∀ digits, First (Given key) raw digits → read = valueOf digits % bound)
    (positive : 0 < bound) :
    (∀ digits, First (Given key) raw digits → read = valueOf digits) ↔
      ∀ digits, First (Given key) raw digits → valueOf digits < bound := by
  constructor
  · intro kept digits given
    rw [← kept digits given, cast digits given]
    exact Nat.mod_lt _ positive
  · intro fits digits given
    rw [cast digits given]
    exact Nat.mod_eq_of_lt (fits digits given)

theorem ports_kept_iff {ports : List UInt16} {body : Bytes} {literals : List Bytes}
    (read : extractUint16Array raw (ascii "allowed_ports") = .ok ports)
    (given : First (GivenList (ascii "allowed_ports")) raw body) (list : Literals body literals) :
    (if ports ≠ [] then ports else [80, 443, 8080, 8443, 853]) = listed literals ↔
      (∀ digits ∈ literals, Sound digits) ∧ ∃ digits ∈ literals, valueOf digits ≤ 65535 := by
  obtain ⟨way, found, rfl⟩ := first_list_iff.mp given
  have items : listItems raw (ascii "allowed_ports") number = literals := by
    rw [listItems, found]
    exact @items_of_literals [] _ _ list (fun c mem => absurd mem List.not_mem_nil)
  have cast : ports = literals.filterMap portOf := by
    rw [extractUint16Array, items] at read
    exact portLoop_eq read
  rw [cast]
  constructor
  · intro kept
    have sound : ∀ digits ∈ literals, Sound digits := by
      by_contra unsound
      push Not at unsound
      have more := length_listed_lt unsound
      have some : literals.filterMap portOf ≠ [] := List.ne_nil_of_length_pos (by omega)
      rw [if_pos some] at kept
      rw [kept] at more
      exact Nat.lt_irrefl _ more
    refine ⟨sound, ?_⟩
    by_contra none
    push Not at none
    have empty : listed literals = [] := by
      rw [listed, List.filter_eq_nil_iff.mpr, List.map_nil]
      intro digits mem port
      have large := none digits mem
      have small := of_decide_eq_true port
      omega
    rw [filterMap_of_sound sound, empty, if_neg (fun ne => ne rfl)] at kept
    cases kept
  · rintro ⟨sound, digits, mem, port⟩
    rw [filterMap_of_sound sound, if_pos]
    intro empty
    rw [listed, List.map_eq_nil_iff] at empty
    exact List.filter_eq_nil_iff.mp empty digits mem (decide_eq_true port)

/-- The configuration has the numbers and the ports of the file exactly if they are in
range. -/
theorem unaltered_iff (accepted : loadConfigOrThrow raw = .ok cfg) :
    Unaltered raw cfg ↔ InRange raw := by
  obtain ⟨⟨value, readPort, port⟩, streams, idle, payload, ports, readPorts, allowed⟩ :=
    loadConfigOrThrow_ok accepted
  have listenPort := @kept_iff raw (ascii "listen_port") cfg.listenPort.toNat (2 ^ 16)
    (fun digits given => by
      rw [port, UInt32.toNat_toUInt16, toNat_extractUint given readPort]
      exact Nat.mod_mod_of_dvd _ (by decide))
    (by decide)
  have maxStreams := @kept_iff raw (ascii "max_streams") cfg.maxStreams.toNat (2 ^ 32)
    (fun digits given => toNat_extractUint given streams) (by decide)
  have idleTimeoutSec := @kept_iff raw (ascii "idle_timeout_sec") cfg.idleTimeoutSec.toNat (2 ^ 32)
    (fun digits given => toNat_extractUint given idle) (by decide)
  have maxPayloadBytes := @kept_iff raw (ascii "max_payload_bytes")
    cfg.egress.maxPayloadBytes.toNat (2 ^ 32)
    (fun digits given => toNat_extractUint given payload) (by decide)
  constructor
  · intro kept
    refine ⟨listenPort.mp kept.listenPort, maxStreams.mp kept.maxStreams,
      idleTimeoutSec.mp kept.idleTimeoutSec, maxPayloadBytes.mp kept.maxPayloadBytes, ?_⟩
    intro body literals given list
    apply (ports_kept_iff readPorts given list).mp
    rw [← allowed]
    exact kept.allowedPorts body literals given list
  · intro fits
    refine ⟨listenPort.mpr fits.listenPort, maxStreams.mpr fits.maxStreams,
      idleTimeoutSec.mpr fits.idleTimeoutSec, maxPayloadBytes.mpr fits.maxPayloadBytes, ?_⟩
    intro body literals given list
    rw [allowed]
    exact (ports_kept_iff readPorts given list).mpr (fits.allowedPorts body literals given list)

end Loading

def sampleText (listenPort : String) : Bytes :=
  ascii "\x7b\"listen_port\": " ++ ascii listenPort ++ ascii "\x7d"

theorem sample_port_kept :
    loadConfigOrThrow (sampleText "30000") = .ok { listenPort := 30000 } ∧
    (Unaltered (sampleText "30000") { listenPort := 30000 } ↔ InRange (sampleText "30000")) := by
  have accepted : loadConfigOrThrow (sampleText "30000") = .ok { listenPort := 30000 } := by
    decide +kernel
  exact ⟨accepted, unaltered_iff accepted⟩

/-- The port 70000 loads as 4464. -/
theorem wide_port_altered :
    loadConfigOrThrow (sampleText "70000") = .ok { listenPort := 4464 } ∧
    ¬ Unaltered (sampleText "70000") { listenPort := 4464 } := by
  refine ⟨by decide +kernel, ?_⟩
  intro kept
  have found : (field (ascii "listen_port") number).search (sampleText "70000") =
      some ([ascii "70000"], ascii "\x7d") := by
    decide +kernel
  have given : First (Given (ascii "listen_port")) (sampleText "70000") (ascii "70000") :=
    first_given_iff.mpr ⟨_, found, rfl⟩
  exact absurd (kept.listenPort _ given) (by decide)

end TonTunnel.ConfigFile
