import TonTunnel.Lib.Quoted
import TonTunnel.Config.JsonField
import TonTunnel.App.ProxyRecovery

/-!
The configuration of the desktop client: `loadRuntimeConfig`.

Up to three files are merged, a field of an earlier file before that of a later one, and
what came from the file of the Android app is written next to the program for the next
start. The writer escapes nothing. Its file is read back with `extractJsonStringField`, so
a value in it that ends in the quoted name of a later field stands in that field's way
(`extract_text`).

* A field is read back as it was written exactly if no value before it captures it, or the
  value behind the first that does is the same (`written_field_iff`).
* If all are, the next start finds the same configuration and leaves the files as they are
  (`reload_same`), wherever the fields came from.
-/

namespace TonTunnel.Runtime

open TonTunnel JsonField Find App

/-! ### Loading and writing -/

/-- `RuntimeConfig`. -/
structure RuntimeConfig where
  egress : Bytes := []
  clientKey : Bytes := []
  advertiseHost : Bytes := []
  authToken : Bytes := []
  socksPort : SocksPort := defaultPort
  deriving DecidableEq

/-- `c_str()` as `std::atoi` reads it. -/
def chars (text : Bytes) : List Char :=
  text.map fun b => Char.ofNat b.toNat

/-- A `uint16_t` in a stream. -/
def decimal (port : SocksPort) : Bytes :=
  (Nat.toDigits 10 port.val).map fun c => c.toNat.toUInt8

/-- `if (own.empty()) own = extractJsonStringField(json, key);` -/
def fill (own json key : Bytes) : Bytes :=
  if own = [] then extractJsonStringField json key else own

/-- The lambda of this name. -/
def loadFromJson (cfg : RuntimeConfig) (json : Bytes) : RuntimeConfig :=
  { egress := fill cfg.egress json (ascii "egress_adnl_address")
    clientKey := fill cfg.clientKey json (ascii "client_private_key")
    advertiseHost := fill cfg.advertiseHost json (ascii "local_udp_advertise_host")
    authToken := fill cfg.authToken json (ascii "auth_token")
    socksPort := loadSocksPort cfg.socksPort
      (chars (extractJsonStringField json (ascii "socks5_port"))) }

/-- `"key": "value"`, as it is written. -/
def entryText (field : Bytes × Bytes) : Bytes :=
  34 :: (field.1 ++ 34 :: (ascii ": " ++ 34 :: (field.2 ++ [34])))

/-- The entries from one on, with what stands between them and behind the last. -/
def entries : List (Bytes × Bytes) → Bytes
  | [] => []
  | [field] => entryText field ++ ascii "\n\x7d\n"
  | field :: next :: rest => entryText field ++ (ascii ",\n  " ++ entries (next :: rest))

/-- The fields in the order of the file. -/
def RuntimeConfig.fields (cfg : RuntimeConfig) : List (Bytes × Bytes) :=
  [(ascii "egress_adnl_address", cfg.egress),
    (ascii "local_udp_advertise_host", cfg.advertiseHost),
    (ascii "client_private_key", cfg.clientKey),
    (ascii "auth_token", cfg.authToken),
    (ascii "socks5_port", decimal cfg.socksPort)]

/-- The file written next to the program. -/
def RuntimeConfig.text (cfg : RuntimeConfig) : Bytes :=
  ascii "\x7b\n  " ++ entries cfg.fields

/-- The three paths; `cwdCfg` may name the same file as `exeCfg`. -/
structure Paths (Path : Type) where
  exeCfg : Path
  cwdCfg : Path
  androidRaw : Path

section Load

variable {Path : Type} [DecidableEq Path]

/-- `readTextFileUtf8` gives the text of the file, and nothing for a file that cannot be
read. -/
abbrev Disk (Path : Type) := Path → Bytes

/-- The test before the second and the third file. -/
def RuntimeConfig.lacks (cfg : RuntimeConfig) : Prop :=
  cfg.egress = [] ∨ cfg.clientKey = [] ∨ cfg.authToken = []

instance (cfg : RuntimeConfig) : Decidable cfg.lacks :=
  inferInstanceAs (Decidable (_ ∨ _ ∨ _))

/-- A file that is not empty is merged. -/
def merge (cfg : RuntimeConfig) (json : Bytes) : RuntimeConfig :=
  if json ≠ [] then loadFromJson cfg json else cfg

/-- `cfg` after the first two files. -/
def nearby (paths : Paths Path) (disk : Disk Path) : RuntimeConfig :=
  let cfg := merge {} (disk paths.exeCfg)
  if cfg.lacks then merge cfg (disk paths.cwdCfg) else cfg

/-- `cfg` after all three. -/
def merged (paths : Paths Path) (disk : Disk Path) : RuntimeConfig :=
  let cfg := nearby paths disk
  if cfg.lacks then merge cfg (disk paths.androidRaw) else cfg

/-- `loadedFromAndroidFallback`. -/
def usesFallback (paths : Paths Path) (disk : Disk Path) : Bool :=
  (nearby paths disk).lacks ∧ disk paths.androidRaw ≠ []

/-- `err`. -/
def missing : String :=
  "Config missing egress_adnl_address/client_private_key.\n" ++
    "Put adnl-transport-config.json near TON-Tunnel.exe"

/-- The configuration or `err`, and the files afterwards; `opens` says whether the file next
to the program can be opened for writing. -/
def loadRuntimeConfig (paths : Paths Path) (opens : Bool) (disk : Disk Path) :
    Except String RuntimeConfig × Disk Path :=
  let cfg := merged paths disk
  if cfg.egress = [] ∨ cfg.clientKey = [] then (.error missing, disk)
  else if usesFallback paths disk ∧ opens then
    (.ok cfg, Function.update disk paths.exeCfg cfg.text)
  else (.ok cfg, disk)

end Load

/-! ### The scanner on a text with the word behind it -/

section Scanner

variable {json key mid gap v back rest : Bytes}

theorem needle_eq_quoted : needle key = quoted 34 key := rfl

theorem findFrom_of_drop {start i : Nat} {sep : Bytes} (here : json.drop start = rest)
    (found : find sep rest = some i) : findFrom sep json start = some (i + start) := by
  rw [findFrom, here, found, Option.map_some]

/-- Without the quoted key, or without a colon behind it, there is nothing to return. -/
theorem extract_of_none (nowhere : behind (needle key) json = none) :
    extractJsonStringField json key = [] := by
  rw [extractJsonStringField, quotes, behind_eq_none.mp nowhere]

theorem extract_of_noColon (found : behind (needle key) json = some rest) (noColon : 58 ∉ rest) :
    extractJsonStringField json key = [] := by
  obtain ⟨i, first, here⟩ := behind_eq_some found
  have colon : findFrom [58] json (i + (needle key).length) = none := by
    rw [findFrom, here, find_singleton_eq_none.mpr noColon, Option.map_none]
  rw [extractJsonStringField, quotes, first]
  dsimp only
  rw [colon]

/-- The closing quote of a piece. -/
theorem scanQuote_of_drop {q : Nat} (here : json.drop q = 34 :: (v ++ 34 :: back))
    (escaped : Escaped 34 92 v) (plain : v.getLast? ≠ some 92) :
    scanQuote json (q + 1) = q + 1 + v.length ∧ q + 1 + v.length < json.length := by
  have inside (k : Nat) : json[q + k]? = (34 :: (v ++ 34 :: back))[k]? := by
    rw [← here, List.getElem?_drop]
  have last : Ends json (q + 1 + v.length) := by
    constructor
    · rw [Nat.add_assoc, inside, Nat.add_comm 1, List.getElem?_cons_succ,
        List.getElem?_append_right le_rfl, Nat.sub_self, List.getElem?_cons_zero]
    · rw [Nat.add_right_comm, Nat.add_sub_cancel, inside]
      cases v with
      | nil =>
          rw [List.length_nil, List.getElem?_cons_zero]
          decide
      | cons c v =>
          rw [List.length_cons, List.getElem?_cons_succ,
            List.getElem?_append_left (by rw [List.length_cons]; omega)]
          rw [List.getLast?_eq_getElem?, List.length_cons, Nat.add_sub_cancel] at plain
          exact plain
  have within : ∀ j, q + 1 ≤ j → j < q + 1 + v.length → ¬ Ends json j := by
    intro j start stop ends
    obtain ⟨k, rfl⟩ := Nat.exists_eq_add_of_le start
    -- a quote inside the piece has its escape
    have short : k < v.length := by omega
    have quote := ends.1
    rw [Nat.add_assoc, inside, Nat.add_comm 1, List.getElem?_cons_succ,
      List.getElem?_append_left short] at quote
    have split : v = v.take k ++ 34 :: v.drop (k + 1) := by
      rw [← (List.getElem?_eq_some_iff.mp quote).2, List.getElem_cons_drop,
        List.take_append_drop]
    have escape := escaped _ _ split
    apply ends.2
    cases k with
    | zero =>
        rw [List.take_zero] at escape
        cases escape
    | succ k =>
        rw [List.getLast?_take, if_neg (Nat.succ_ne_zero k), Nat.add_sub_cancel,
          List.getElem?_eq_getElem (by omega), Option.some_or] at escape
        rw [← Nat.add_assoc, Nat.add_sub_cancel, Nat.add_assoc, inside, Nat.add_comm 1,
          List.getElem?_cons_succ, List.getElem?_append_left (by omega),
          List.getElem?_eq_getElem (by omega), escape]
  exact ⟨scanQuote_eq (by omega) last within, (List.getElem?_eq_some_iff.mp last.1).1⟩

/-- The piece behind the next colon is returned. -/
theorem extract_of_behind
    (found : behind (needle key) json = some (mid ++ 58 :: (gap ++ 34 :: (v ++ 34 :: back))))
    (noColon : 58 ∉ mid) (noQuote : 34 ∉ gap) (escaped : Escaped 34 92 v)
    (plain : v.getLast? ≠ some 92) : extractJsonStringField json key = v := by
  obtain ⟨i, first, here⟩ := behind_eq_some found
  generalize keyEnd : i + (needle key).length = start at here
  have colon := findFrom_of_drop here (find_singleton noColon)
  have behindColon : json.drop (mid.length + start + 1) = gap ++ 34 :: (v ++ 34 :: back) := by
    rw [Nat.add_comm mid.length, Nat.add_assoc, ← List.drop_drop, here, ← List.drop_drop,
      List.drop_left]
    rfl
  have quote := findFrom_of_drop behindColon (find_singleton noQuote)
  generalize quoteStart : gap.length + (mid.length + start + 1) = q at quote
  have atQuote : json.drop q = 34 :: (v ++ 34 :: back) := by
    rw [← quoteStart, Nat.add_comm gap.length, ← List.drop_drop, behindColon, List.drop_left]
  obtain ⟨stop, size⟩ := scanQuote_of_drop atQuote escaped plain
  have span : q + 1 + v.length - q - 1 = v.length := by omega
  rw [extractJsonStringField, quotes, first]
  dsimp only
  rw [keyEnd, colon]
  dsimp only
  rw [quote]
  dsimp only
  rw [stop, if_neg (by omega)]
  dsimp only
  rw [span, ← List.drop_drop, atQuote]
  exact List.take_left

/-- What the scanner returns can be written between quotes: it has no quote without a
backslash and no backslash at its end. -/
structure Quotable (v : Bytes) : Prop where
  escaped : Escaped 34 92 v
  plain : v.getLast? ≠ some 92

theorem Quotable.of_notMem (noQuote : 34 ∉ v) (noEscape : 92 ∉ v) : Quotable v :=
  ⟨Escaped.of_notMem noQuote, fun last => noEscape (List.mem_of_getLast? last)⟩

theorem quotable_extract (json key : Bytes) : Quotable (extractJsonStringField json key) := by
  cases found : quotes json key with
  | none =>
      rw [extractJsonStringField, found]
      exact Quotable.of_notMem List.not_mem_nil List.not_mem_nil
  | some span =>
      obtain ⟨q, stop⟩ := span
      obtain ⟨colonPos, looks, start, ends, within⟩ := quotes_eq_some_iff.mp found
      have opened := looks.quoted.here
      have size := (List.getElem?_eq_some_iff.mp ends.1).1
      obtain ⟨n, rfl⟩ := Nat.exists_eq_add_of_lt start
      have length : ((json.drop (q + 1)).take n).length = n := by
        rw [List.length_take, List.length_drop]
        omega
      have inside (k : Nat) (short : k < n) :
          ((json.drop (q + 1)).take n)[k]? = json[q + 1 + k]? := by
        rw [List.getElem?_take_of_lt short, List.getElem?_drop]
      have extracted : extractJsonStringField json key = (json.drop (q + 1)).take n := by
        have span : q + n + 1 - q - 1 = n := by omega
        rw [extractJsonStringField, found]
        dsimp only
        rw [span]
      rw [extracted]
      constructor
      · intro before after split
        have total := congrArg List.length split
        rw [length, List.length_append, List.length_cons] at total
        have quote := inside before.length (by omega)
        rw [split, List.getElem?_append_right le_rfl, Nat.sub_self, List.getElem?_cons_zero]
          at quote
        -- the quote is not the first without a backslash
        have escape : json[q + 1 + before.length - 1]? = some 92 := by
          by_contra none
          exact within (q + 1 + before.length) (by omega) (by omega) ⟨quote.symm, none⟩
        rcases List.eq_nil_or_concat' before with rfl | ⟨front, last, rfl⟩
        · rw [List.length_nil, Nat.add_zero, Nat.add_sub_cancel, opened] at escape
          cases escape
        · rw [List.length_append, List.length_singleton] at total escape
          have same := inside front.length (by omega)
          rw [split, List.append_assoc, List.getElem?_append_right le_rfl, Nat.sub_self,
            List.singleton_append, List.getElem?_cons_zero] at same
          rw [← Nat.add_assoc, Nat.add_sub_cancel, ← same] at escape
          rw [List.getLast?_concat, escape]
      · intro last
        rw [List.getLast?_eq_getElem?, length] at last
        cases n with
        | zero => cases last
        | succ n =>
            rw [Nat.add_sub_cancel, inside n (Nat.lt_succ_self n)] at last
            apply ends.2
            rw [← last]
            congr 1
            omega

end Scanner

/-! ### Reading the written file -/

section Written

variable {key k v value : Bytes} {field : Bytes × Bytes} {fields : List (Bytes × Bytes)}

/-- A name that is not quoted anywhere but in its own place and in values. -/
structure IsName (k : Bytes) : Prop where
  noQuote : 34 ∉ k
  noColon : 58 ∉ k
  noComma : 44 ∉ k
  plain : k.getLast? ≠ some 92

/-- The value is the name, or it ends in an escaped quote and the name. -/
def Captures (key v : Bytes) : Prop := 34 :: key <:+ 34 :: v

instance (key v : Bytes) : Decidable (Captures key v) :=
  inferInstanceAs (Decidable (_ <:+ _))

/-- What the scanner returns for a name: its value, or the value behind the first value that
captures the name. -/
def returned (key : Bytes) : List (Bytes × Bytes) → Bytes
  | [] => []
  | [field] => if field.1 = key then field.2 else []
  | field :: next :: rest =>
      if field.1 = key then field.2
      else if Captures key field.2 then next.2
      else returned key (next :: rest)

theorem entries_cons (fields : List (Bytes × Bytes)) : ∃ tail,
    entries (field :: fields) = entryText field ++ tail := by
  cases fields with
  | nil => exact ⟨_, rfl⟩
  | cons next rest => exact ⟨_, rfl⟩

/-- Searching an entry and what follows it. -/
theorem behind_entry (name : IsName key) (other : IsName field.1) (quotable : Quotable field.2)
    (tail : Bytes) : behind (needle key) (entryText field ++ tail) =
      if field.1 = key then some (ascii ": " ++ 34 :: (field.2 ++ 34 :: tail))
      else if Captures key field.2 then some tail
      else behind (needle key) (34 :: tail) := by
  have whole : entryText field ++ tail =
      34 :: (field.1 ++ 34 :: (ascii ": " ++ 34 :: (field.2 ++ 34 :: tail))) := by
    simp [entryText]
  have between : ascii ": " ≠ key := by
    rintro rfl
    exact name.noColon (by decide)
  rw [whole, needle_eq_quoted, behind_quoted name.noQuote other.noQuote,
    behind_quoted name.noQuote (by decide), if_neg between,
    behind_escaped (by decide) name.noQuote name.plain quotable.escaped]
  rfl

/-- Behind its own name the value is returned. -/
theorem extract_own {json tail : Bytes} (quotable : Quotable v)
    (same : behind (needle key) json = some (ascii ": " ++ 34 :: (v ++ 34 :: tail))) :
    extractJsonStringField json key = v := by
  have parts : behind (needle key) json =
      some ([] ++ 58 :: ([32] ++ 34 :: (v ++ 34 :: tail))) := same
  exact extract_of_behind parts List.not_mem_nil (by decide) quotable.escaped quotable.plain

/-- Behind a captured place the value of the next entry is returned, since the next colon
is the one of that entry. -/
theorem extract_captured {json : Bytes} {rest : List (Bytes × Bytes)} (name : IsName field.1)
    (quotable : Quotable field.2)
    (same : behind (needle key) json = some (ascii ",\n  " ++ entries (field :: rest))) :
    extractJsonStringField json key = field.2 := by
  obtain ⟨tail, start⟩ : ∃ tail, entries (field :: rest) = entryText field ++ tail :=
    entries_cons rest
  have parts : ascii ",\n  " ++ entries (field :: rest) =
      (ascii ",\n  " ++ 34 :: (field.1 ++ [34])) ++
        58 :: ([32] ++ 34 :: (field.2 ++ 34 :: tail)) := by
    rw [start]
    simp [entryText, show ascii ": " = [58, 32] by decide]
  rw [parts] at same
  refine extract_of_behind same ?_ (by decide) quotable.escaped quotable.plain
  have comma : (58 : UInt8) ∉ ascii ",\n  " := by decide
  simp [comma, name.noColon]

/-- Between two entries nothing is found. -/
theorem behind_between {rest : List (Bytes × Bytes)} (name : IsName key) :
    behind (needle key) (34 :: (ascii ",\n  " ++ entries (field :: rest))) =
      behind (needle key) (entries (field :: rest)) := by
  obtain ⟨tail, start⟩ : ∃ tail, entries (field :: rest) = entryText field ++ tail :=
    entries_cons rest
  have between : ascii ",\n  " ≠ key := by
    rintro rfl
    exact name.noComma (by decide)
  have opened : entries (field :: rest) = 34 :: (entries (field :: rest)).tail := by
    rw [start]
    rfl
  rw [opened, needle_eq_quoted, behind_quoted name.noQuote (by decide), if_neg between]

/-- What is written is read as `returned` says. -/
theorem extract_entries (name : IsName key) {json : Bytes} {fields : List (Bytes × Bytes)}
    (good : ∀ field ∈ fields, IsName field.1 ∧ Quotable field.2)
    (same : behind (needle key) json = behind (needle key) (entries fields)) :
    extractJsonStringField json key = returned key fields := by
  fun_induction returned key fields with
  | case1 => exact extract_of_none same
  | case2 field own =>
      obtain ⟨other, quotable⟩ := good field List.mem_cons_self
      rw [entries, behind_entry name other quotable, if_pos own] at same
      exact extract_own quotable same
  | case3 field foreign =>
      obtain ⟨other, quotable⟩ := good field List.mem_cons_self
      rw [entries, behind_entry name other quotable, if_neg foreign] at same
      split at same
      · exact extract_of_noColon same (by decide)
      · exact extract_of_none (same.trans (behind_last (by decide)))
  | case4 field next rest own =>
      obtain ⟨other, quotable⟩ := good field List.mem_cons_self
      rw [entries, behind_entry name other quotable, if_pos own] at same
      exact extract_own quotable same
  | case5 field next rest foreign captured =>
      obtain ⟨other, quotable⟩ := good field List.mem_cons_self
      obtain ⟨nextName, nextQuotable⟩ := good next (List.mem_cons_of_mem _ List.mem_cons_self)
      rw [entries, behind_entry name other quotable, if_neg foreign, if_pos captured] at same
      exact extract_captured nextName nextQuotable same
  | case6 field next rest foreign passed ih =>
      obtain ⟨other, quotable⟩ := good field List.mem_cons_self
      rw [entries, behind_entry name other quotable, if_neg foreign, if_neg passed,
        behind_between name] at same
      exact ih (fun f mem => good f (List.mem_cons_of_mem field mem)) same

/-- No value before the field captures its name, or the value behind the first that does is
the same. -/
def Unhidden (fields : List (Bytes × Bytes)) (key value : Bytes) : Prop :=
  ∀ before field next after, fields = before ++ field :: next :: after →
    (∀ f ∈ before, f.1 ≠ key ∧ ¬ Captures key f.2) →
    field.1 ≠ key → Captures key field.2 → next.2 = value

theorem returned_iff (distinct : (fields.map Prod.fst).Nodup) (mem : (key, value) ∈ fields) :
    returned key fields = value ↔ Unhidden fields key value := by
  fun_induction returned key fields with
  | case1 => cases mem
  | case2 field own =>
      obtain rfl := List.mem_singleton.mp mem
      refine ⟨fun _ => ?_, fun _ => rfl⟩
      intro before field' next after split
      have := congrArg List.length split
      simp at this
      omega
  | case3 field foreign =>
      obtain rfl := List.mem_singleton.mp mem
      exact absurd rfl foreign
  | case4 field next rest own =>
      have same : field.2 = value := by
        rcases List.mem_cons.mp mem with rfl | inside
        · rfl
        · have := List.mem_map_of_mem (f := Prod.fst) inside
          rw [← own] at this
          exact absurd this (List.nodup_cons.mp distinct).1
      refine ⟨fun _ => ?_, fun _ => same⟩
      intro before field' next' after split pass foreign captured
      cases before with
      | nil =>
          cases split
          exact absurd own foreign
      | cons f before =>
          obtain ⟨rfl, -⟩ := List.cons.inj split
          exact absurd own (pass field List.mem_cons_self).1
  | case5 field next rest foreign captured =>
      constructor
      · intro same before field' next' after split pass foreign' captured'
        cases before with
        | nil =>
            cases split
            exact same
        | cons f before =>
            obtain ⟨rfl, -⟩ := List.cons.inj split
            exact absurd captured (pass field List.mem_cons_self).2
      · intro unhidden
        exact unhidden [] field next rest rfl (fun _ mem => absurd mem List.not_mem_nil) foreign
          captured
  | case6 field next rest foreign passed ih =>
      have inside : (key, value) ∈ next :: rest := by
        rcases List.mem_cons.mp mem with rfl | inside
        · exact absurd rfl foreign
        · exact inside
      rw [ih (List.nodup_cons.mp distinct).2 inside]
      constructor
      · intro unhidden before field' next' after split pass foreign' captured'
        cases before with
        | nil =>
            cases split
            exact absurd captured' passed
        | cons f before =>
            exact unhidden before field' next' after (List.cons.inj split).2
              (fun g mem => pass g (List.mem_cons_of_mem f mem)) foreign' captured'
      · intro unhidden before field' next' after split pass
        apply unhidden (field :: before) field' next' after (congrArg (field :: ·) split)
        intro f mem
        rcases List.mem_cons.mp mem with rfl | mem
        · exact ⟨foreign, passed⟩
        · exact pass f mem

end Written

/-! ### Loading again -/

section Reload

variable {cfg : RuntimeConfig} {json other key own : Bytes} {p : SocksPort} {s : List Char}

theorem fill_idem : fill (fill own json key) json key = fill own json key := by
  by_cases empty : own = []
  · rw [fill, fill, if_pos empty, ite_id]
  · rw [fill, fill, if_neg empty, if_neg empty]

/-- What has been filled from a file stays so when another file is merged. -/
theorem fill_stable (filled : fill own json key = own) :
    fill (fill own other key) json key = fill own other key := by
  by_cases empty : own = []
  · have silent : extractJsonStringField json key = [] := by
      rwa [fill, if_pos empty, empty] at filled
    by_cases found : extractJsonStringField other key = []
    · rw [fill, fill, if_pos empty, if_pos found, silent, found]
    · rw [fill, fill, if_pos empty, if_neg found]
  · rw [fill, fill, if_neg empty, if_neg empty]

/-- The port that a file has. -/
def portIn (s : List Char) : Option SocksPort :=
  if h : s ≠ [] ∧ 0 < atoi s ∧ atoi s ≤ 65535 then
    some ⟨(atoi s).toNat, Int.pos_iff_toNat_pos.mp h.2.1, Int.toNat_le.mpr h.2.2⟩
  else none

theorem loadSocksPort_eq :
    loadSocksPort p s = if p.val = 1080 then (portIn s).getD p else p := by
  unfold loadSocksPort portIn
  split_ifs <;> simp_all

theorem loadSocksPort_idem : loadSocksPort (loadSocksPort p s) s = loadSocksPort p s := by
  simp only [loadSocksPort_eq]
  by_cases unset : p.val = 1080
  · cases portIn s <;> simp [unset]
  · simp [unset]

theorem loadSocksPort_stable {s' : List Char} (filled : loadSocksPort p s = p) :
    loadSocksPort (loadSocksPort p s') s = loadSocksPort p s' := by
  simp only [loadSocksPort_eq] at *
  by_cases unset : p.val = 1080
  · rw [if_pos unset] at filled
    cases found : portIn s' with
    | none => simp only [if_pos unset, Option.getD_none, filled]
    | some port =>
        simp only [if_pos unset, Option.getD_some]
        split
        · next same =>
            -- the port of the other file is the default again
            cases here : portIn s with
            | none => rfl
            | some own =>
                rw [here, Option.getD_some] at filled
                rw [Option.getD_some, filled]
                cases port
                cases p
                cases same.trans unset.symm
                rfl
        · rfl
  · simp [unset]

theorem loadFromJson_idem : loadFromJson (loadFromJson cfg json) json = loadFromJson cfg json := by
  simp only [loadFromJson, fill_idem, loadSocksPort_idem]

theorem loadFromJson_stable (filled : loadFromJson cfg json = cfg) :
    loadFromJson (loadFromJson cfg other) json = loadFromJson cfg other := by
  obtain ⟨egress, clientKey, advertiseHost, authToken, socksPort⟩ := cfg
  simp only [loadFromJson, RuntimeConfig.mk.injEq] at filled
  obtain ⟨fst, snd, trd, fth, fif⟩ := filled
  simp only [loadFromJson, fill_stable fst, fill_stable snd, fill_stable trd, fill_stable fth,
    loadSocksPort_stable fif]

/-- A configuration to which the file adds nothing. -/
def Holds (cfg : RuntimeConfig) (json : Bytes) : Prop := merge cfg json = cfg

theorem holds_merge : Holds (merge cfg json) json := by
  rw [Holds, merge, merge]
  split
  · exact loadFromJson_idem
  · rfl

theorem Holds.merge (holds : Holds cfg json) : Holds (merge cfg other) json := by
  unfold Holds Runtime.merge at *
  by_cases empty : json = []
  · rw [if_neg (not_not_intro empty)]
  · rw [if_pos empty] at *
    split
    · exact loadFromJson_stable holds
    · exact holds

variable {Path : Type} {paths : Paths Path} {disk : Disk Path}

/-- The configuration has all that is in the files that were looked at. -/
theorem merged_holds (used : usesFallback paths disk = true) :
    Holds (merged paths disk) (disk paths.cwdCfg) ∧
    Holds (merged paths disk) (disk paths.androidRaw) := by
  obtain ⟨lacks, -⟩ := of_decide_eq_true used
  have exeLacks : (merge {} (disk paths.exeCfg)).lacks := by
    by_contra full
    rw [nearby, if_neg full] at lacks
    exact full lacks
  have near : nearby paths disk = merge (merge {} (disk paths.exeCfg)) (disk paths.cwdCfg) := by
    rw [nearby, if_pos exeLacks]
  rw [merged, if_pos lacks]
  refine ⟨Holds.merge ?_, holds_merge⟩
  rw [near]
  exact holds_merge

/-! #### The values that are written -/

theorem chars_decimal (port : SocksPort) : chars (decimal port) = Nat.toDigits 10 port.val := by
  rw [chars, decimal, List.map_map]
  conv_rhs => rw [← List.map_id (Nat.toDigits 10 port.val)]
  apply List.map_congr_left
  intro c mem
  have digit := Nat.isDigit_of_mem_toDigits (by decide) (by decide) mem
  have range : 48 ≤ c.toNat ∧ c.toNat ≤ 57 := Char.isDigit_iff_toNat.mp digit
  have small : c.toNat.toUInt8.toNat = c.toNat := Nat.mod_eq_of_lt (by omega)
  rw [Function.comp, small, Char.ofNat_toNat, id]

theorem notMem_decimal {b : UInt8} (notDigit : (Char.ofNat b.toNat).isDigit = false)
    (port : SocksPort) : b ∉ decimal port := by
  intro mem
  have inside : Char.ofNat b.toNat ∈ chars (decimal port) := List.mem_map_of_mem mem
  rw [chars_decimal] at inside
  exact notDigit_notMem_toDigits notDigit _ inside

theorem quotable_fill (quotable : Quotable own) : Quotable (fill own json key) := by
  rw [fill]
  split
  · exact quotable_extract json key
  · exact quotable

/-- The texts of the configuration can be written between quotes. -/
structure AllQuotable (cfg : RuntimeConfig) : Prop where
  egress : Quotable cfg.egress
  clientKey : Quotable cfg.clientKey
  advertiseHost : Quotable cfg.advertiseHost
  authToken : Quotable cfg.authToken

theorem AllQuotable.merge (all : AllQuotable cfg) : AllQuotable (merge cfg json) := by
  rw [Runtime.merge]
  split
  · exact ⟨quotable_fill all.egress, quotable_fill all.clientKey,
      quotable_fill all.advertiseHost, quotable_fill all.authToken⟩
  · exact all

theorem allQuotable_merged (paths : Paths Path) (disk : Disk Path) :
    AllQuotable (merged paths disk) := by
  have empty : Quotable [] := Quotable.of_notMem List.not_mem_nil List.not_mem_nil
  have first : AllQuotable (Runtime.merge {} (disk paths.exeCfg)) :=
    AllQuotable.merge ⟨empty, empty, empty, empty⟩
  have second : AllQuotable (nearby paths disk) := by
    rw [nearby]
    split
    · exact first.merge
    · exact first
  rw [merged]
  split
  · exact second.merge
  · exact second

theorem names (cfg : RuntimeConfig) : ∀ field ∈ cfg.fields, IsName field.1 := by
  have all : ∀ key ∈ [ascii "egress_adnl_address", ascii "local_udp_advertise_host",
      ascii "client_private_key", ascii "auth_token", ascii "socks5_port"], IsName key := by
    intro key mem
    simp only [List.mem_cons, List.not_mem_nil, or_false] at mem
    rcases mem with rfl | rfl | rfl | rfl | rfl <;>
      exact ⟨by decide, by decide, by decide, by decide⟩
  intro field mem
  exact all field.1 (List.mem_map_of_mem (f := Prod.fst) mem)

theorem names_distinct (cfg : RuntimeConfig) : (cfg.fields.map Prod.fst).Nodup := by
  change [ascii "egress_adnl_address", ascii "local_udp_advertise_host",
    ascii "client_private_key", ascii "auth_token", ascii "socks5_port"].Nodup
  decide

theorem AllQuotable.values (all : AllQuotable cfg) : ∀ field ∈ cfg.fields, Quotable field.2 := by
  have number : Quotable (decimal cfg.socksPort) :=
    Quotable.of_notMem (notMem_decimal (by decide) _) (notMem_decimal (by decide) _)
  intro field mem
  simp only [RuntimeConfig.fields, List.mem_cons, List.not_mem_nil, or_false] at mem
  rcases mem with rfl | rfl | rfl | rfl | rfl
  · exact all.egress
  · exact all.advertiseHost
  · exact all.clientKey
  · exact all.authToken
  · exact number

/-- The written file is read as `returned` says. -/
theorem extract_text (all : AllQuotable cfg) {field : Bytes × Bytes} (mem : field ∈ cfg.fields) :
    extractJsonStringField cfg.text field.1 = returned field.1 cfg.fields := by
  apply extract_entries (names cfg field mem)
  · intro other mem'
    exact ⟨names cfg other mem', all.values other mem'⟩
  · rw [RuntimeConfig.text, needle_eq_quoted, behind_skip (by decide)]

/-- The file has every field of the configuration. -/
def ReadsBack (cfg : RuntimeConfig) : Prop :=
  ∀ field ∈ cfg.fields, extractJsonStringField cfg.text field.1 = field.2

variable [DecidableEq Path] {opens : Bool} {after : Disk Path}

theorem text_ne_nil (cfg : RuntimeConfig) : cfg.text ≠ [] :=
  List.cons_ne_nil _ _

theorem ReadsBack.loads (reads : ReadsBack cfg) : Runtime.merge {} cfg.text = cfg := by
  have read := reads
  simp only [ReadsBack, RuntimeConfig.fields, List.forall_mem_cons] at read
  obtain ⟨egress, advertiseHost, clientKey, authToken, socksPort, -⟩ := read
  rw [Runtime.merge, if_pos (text_ne_nil cfg)]
  simp only [loadFromJson, fill, if_true, egress, advertiseHost, clientKey, authToken, socksPort,
    chars_decimal, loadSocksPort_toDigits]

theorem ReadsBack.holds (reads : ReadsBack cfg) : Holds cfg cfg.text := by
  have again : Holds (Runtime.merge {} cfg.text) cfg.text := holds_merge
  rwa [reads.loads] at again

theorem merged_after (used : usesFallback paths disk = true)
    (reads : ReadsBack (merged paths disk)) :
    merged paths (Function.update disk paths.exeCfg (merged paths disk).text) =
      merged paths disk := by
  obtain ⟨cwd, android⟩ := merged_holds used
  generalize merged paths disk = cfg at *
  have kept (path : Path) (holds : Holds cfg (disk path)) :
      Holds cfg (Function.update disk paths.exeCfg cfg.text path) := by
    by_cases same : path = paths.exeCfg
    · rw [same, Function.update_self]
      exact reads.holds
    · rw [Function.update_of_ne same]
      exact holds
  have near : nearby paths (Function.update disk paths.exeCfg cfg.text) = cfg := by
    rw [nearby, Function.update_self, reads.loads]
    split
    · exact kept _ cwd
    · rfl
  rw [merged, near]
  split
  · exact kept _ android
  · rfl

theorem loadRuntimeConfig_ok (load : loadRuntimeConfig paths opens disk = (.ok cfg, after)) :
    cfg = merged paths disk ∧ ¬ (cfg.egress = [] ∨ cfg.clientKey = []) ∧
    after = if usesFallback paths disk ∧ opens then
      Function.update disk paths.exeCfg cfg.text else disk := by
  unfold loadRuntimeConfig at load
  dsimp only at load
  split at load
  · cases load
  · next present =>
      split at load
      · next written =>
          cases load
          exact ⟨rfl, present, by rw [if_pos written]⟩
      · next kept =>
          cases load
          exact ⟨rfl, present, by rw [if_neg kept]⟩

end Reload

section Main

variable {Path : Type} [DecidableEq Path] {paths : Paths Path} {opens : Bool}
  {disk after : Disk Path} {cfg : RuntimeConfig}

/-- **Which fields survive.** The file written next to the program gives a field back exactly
if no value before it captures its name, or the value behind the first that does is the
field's own. -/
theorem written_field_iff (load : loadRuntimeConfig paths opens disk = (.ok cfg, after)) :
    ∀ field ∈ cfg.fields, extractJsonStringField cfg.text field.1 = field.2 ↔
      Unhidden cfg.fields field.1 field.2 := by
  obtain ⟨rfl, -, -⟩ := loadRuntimeConfig_ok load
  intro field mem
  rw [extract_text (allQuotable_merged paths disk) mem]
  exact returned_iff (names_distinct _) mem

/-- The three files of the examples; the first two are missing. -/
def samplePaths : Paths (Fin 3) := ⟨0, 1, 2⟩

def onlyAndroid (json : Bytes) : Disk (Fin 3) := Function.update (fun _ => []) 2 json

theorem load_onlyAndroid (json : Bytes) (read : json ≠ [])
    (complete : ¬ (loadFromJson {} json).lacks) :
    loadRuntimeConfig samplePaths true (onlyAndroid json) =
      (.ok (loadFromJson {} json), (loadRuntimeConfig samplePaths true (onlyAndroid json)).2) := by
  have merged_ : merged samplePaths (onlyAndroid json) = loadFromJson {} json := by
    change merge {} json = _
    rw [merge, if_pos read]
  have found : ¬ ((loadFromJson {} json).egress = [] ∨ (loadFromJson {} json).clientKey = []) := by
    rintro (missing | missing)
    · exact complete (.inl missing)
    · exact complete (.inr (.inl missing))
  rw [loadRuntimeConfig, merged_, if_neg found]
  split <;> rfl

/-- The host ends in an escaped quote and `auth_token`. -/
def hidingHost : Bytes :=
  ascii "\x7b\"auth_token\":\"t\",\"client_private_key\":\"k\"," ++
    ascii "\"egress_adnl_address\":\"e\",\"local_udp_advertise_host\":\"h\\\"auth_token\"\x7d"

/-- The private key is read back as the token. -/
theorem written_field_iff_hidingHost :
    extractJsonStringField (loadFromJson {} hidingHost).text (ascii "auth_token") = ascii "k" ∧
    ¬ Unhidden (loadFromJson {} hidingHost).fields (ascii "auth_token") (ascii "t") := by
  have misread : extractJsonStringField (loadFromJson {} hidingHost).text (ascii "auth_token") =
      ascii "k" := by decide +kernel
  have load := load_onlyAndroid hidingHost (by decide) (by decide +kernel)
  refine ⟨misread, fun unhidden => ?_⟩
  have read := (written_field_iff load (ascii "auth_token", ascii "t") (by decide +kernel)).mpr
    unhidden
  rw [misread] at read
  exact absurd read (by decide)

/-- **The next start.** Loading again finds the same configuration and changes no file,
whether the fields came from one file or from three, and whether or not the fallback was
written, as long as every field is read back. -/
theorem reload_same (load : loadRuntimeConfig paths opens disk = (.ok cfg, after))
    (unhidden : ∀ field ∈ cfg.fields, Unhidden cfg.fields field.1 field.2) :
    loadRuntimeConfig paths opens after = (.ok cfg, after) := by
  obtain ⟨rfl, present, left⟩ := loadRuntimeConfig_ok load
  have reads : ReadsBack (merged paths disk) := by
    intro field mem
    rw [extract_text (allQuotable_merged paths disk) mem]
    exact (returned_iff (names_distinct _) mem).mpr (unhidden field mem)
  by_cases written : usesFallback paths disk ∧ opens
  · rw [if_pos written] at left
    have same := merged_after written.1 reads
    rw [← left] at same
    rw [loadRuntimeConfig, same, if_neg present]
    split
    · rw [left, Function.update_idem]
    · rfl
  · rw [if_neg written] at left
    rw [left] at load ⊢
    exact load

/-- The same with a host that ends otherwise. -/
def plainHost : Bytes :=
  ascii "\x7b\"auth_token\":\"t\",\"client_private_key\":\"k\"," ++
    ascii "\"egress_adnl_address\":\"e\",\"local_udp_advertise_host\":\"h\"\x7d"

/-- The file that the first start writes is read by the second. -/
theorem reload_same_plainHost :
    loadRuntimeConfig samplePaths true
        (loadRuntimeConfig samplePaths true (onlyAndroid plainHost)).2 =
      (.ok (loadFromJson {} plainHost),
        (loadRuntimeConfig samplePaths true (onlyAndroid plainHost)).2) := by
  have load := load_onlyAndroid plainHost (by decide) (by decide +kernel)
  apply reload_same load
  intro field mem
  have uncaptured : ∀ field ∈ (loadFromJson {} plainHost).fields,
      returned field.1 (loadFromJson {} plainHost).fields = field.2 := by decide +kernel
  exact (returned_iff (names_distinct _) mem).mp (uncaptured field mem)

end Main

end TonTunnel.Runtime
