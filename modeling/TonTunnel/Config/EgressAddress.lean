import Mathlib.Data.FinEnum
import TonTunnel.Protocol.Server
import TonTunnel.Lib.Utf16

/-!
The address of the egress node, `<pubkey_hex>@<host:port>`, which is read twice:
`validateEgressAdnlAddress` of the Android service looks whether it can be used, and
`parse_egress` of the native client uses it.

The validator trims the address and its two parts; the native parser takes the parts as
they are. Both cut at the first `@`, since its byte stands for nothing else
(`find_modifiedUtf8`). So they agree exactly when there is nothing to trim
(`validated_parsed_iff`). The library's `from_hex` is a parameter.
-/

namespace TonTunnel.EgressAddress

open TonTunnel Find Utf16
open WhiteSpace (trim trim_spec trim_bare trim_of_bare trim_blank_append trim_append_blank Bare)

/-! ### The validator -/

section Validator

variable (other : UInt16 → Option Nat)

/-- A digit of `[0-9a-fA-F]`. -/
def isHexDigit (c : UInt16) : Bool :=
  (48 ≤ c && c ≤ 57) || (97 ≤ c && c ≤ 102) || (65 ≤ c && c ≤ 70)

/-- `EGRESS_PUBKEY_HEX_REGEX.matches(text)`. -/
def matchesPubkeyHex (text : Text) : Bool :=
  text.length = 64 && text.all isHexDigit

/-- `text.lastIndexOf(c)`. -/
def lastIndexOf (c : UInt16) (text : Text) : Option Nat :=
  (find [c] text.reverse).map fun i => text.length - 1 - i

/-- The port behind the host. -/
def withPort (host port : Text) : Option (Text × Int) :=
  (toIntOrNull other port).map fun n => (host, n)

def parseHostPort (endpoint : Text) : Option (Text × Int) :=
  if [91] <+: endpoint then
    match find [93] endpoint with
    | none => none
    | some closeIdx =>
        if closeIdx ≤ 1 ∨ closeIdx + 1 ≥ endpoint.length ∨
            (endpoint.drop (closeIdx + 1)).head? ≠ some 58 then none
        else withPort other ((endpoint.take closeIdx).drop 1) (endpoint.drop (closeIdx + 2))
  else
    match lastIndexOf 58 endpoint with
    | none => none
    | some colonIdx =>
        if colonIdx = 0 ∨ colonIdx = endpoint.length - 1 then none
        else withPort other (endpoint.take colonIdx) (endpoint.drop (colonIdx + 1))

/-- `pubkeyHex` and `endpoint`, for an address with an `@`. -/
def trimmedParts (value : Text) : Option (Text × Text) :=
  (cut [64] (trim isWhitespace value)).map fun (before, after) =>
    (trim isWhitespace before, trim isWhitespace after)

/-- `none` is null: no error. -/
def validateEgressAdnlAddress (value : Text) : Option String :=
  if trim isWhitespace value = [] then some "пустая строка"
  else
    match trimmedParts value with
    | none => some "ожидается формат <pubkey_hex>@<host:port>"
    | some (pubkeyHex, endpoint) =>
        if ¬ matchesPubkeyHex pubkeyHex then
          some "pubkey_hex должен содержать ровно 64 hex-символа"
        else if endpoint = [] then some "часть <host:port> пустая"
        else
          match parseHostPort other endpoint with
          | none => some "часть <host:port> не распознана"
          | some (_, port) =>
              if ¬ (1 ≤ port ∧ port ≤ 65535) then some "port должен быть в диапазоне 1..65535"
              else none

end Validator

/-! ### The native parser -/

section Native

variable {κ : Type} (fromHex : Bytes → Int × κ)

/-- `parse_egress`. `fromHex` is the result of `Bits256::from_hex` and the bits it leaves; the
key is made of the bits. -/
def parseEgress (value : Bytes) : Except String (κ × Bytes) :=
  match find [64] value with
  | none =>
      .error "Invalid egress_adnl_address format, expected <pubkey_hex>@<host:port>"
  | some pos =>
      if pos = 0 ∨ pos + 1 ≥ value.length then
        .error "Invalid egress_adnl_address format, expected <pubkey_hex>@<host:port>"
      else
        let pubHex := value.take pos
        let host := value.drop (pos + 1)
        if (fromHex pubHex).1 ≠ 256 then
          .error "Invalid ADNL public key hex in egress_adnl_address"
        else .ok ((fromHex pubHex).2, host)

/-- 64 hexadecimal digits. -/
def IsKeyHex (text : Bytes) : Prop :=
  text.length = 64 ∧ ∀ b ∈ text, isHexDigit b.toUInt16 = true

end Native

/-! ### Agreement -/

/-- No white space at the ends of the address, nor on either side of its first `@`. -/
def Snug (value : Text) : Prop :=
  ∃ before after, value = before ++ 64 :: after ∧ 64 ∉ before ∧ Bare isWhitespace before ∧
    Bare isWhitespace after

section Agreement

variable {other : UInt16 → Option Nat} {value before after : Text}

/-- The byte of the `@` stands for nothing else. -/
theorem find_modifiedUtf8 (clean : 64 ∉ before) :
    find [64] (modifiedUtf8 (before ++ 64 :: after)) = some (modifiedUtf8 before).length := by
  have mark : modifiedUtf8 (before ++ 64 :: after) =
      modifiedUtf8 before ++ 64 :: modifiedUtf8 after := by
    rw [modifiedUtf8_append]
    rfl
  rw [mark]
  apply find_singleton
  intro mem
  obtain ⟨c, inside, byte⟩ := List.mem_flatMap.mp mem
  have unit : c = 64 := unit_of_ascii_byte (by decide) byte
  exact clean (unit ▸ inside)

/-- The address around its first `@`, and what the validator makes of the two parts. -/
theorem trimmedParts_eq_some {pubkeyHex endpoint : Text}
    (parts : trimmedParts value = some (pubkeyHex, endpoint)) :
    ∃ before after, value = before ++ 64 :: after ∧ 64 ∉ before ∧
      trim isWhitespace before = pubkeyHex ∧ trim isWhitespace after = endpoint := by
  obtain ⟨⟨first, second⟩, found, same⟩ := Option.map_eq_some_iff.mp parts
  obtain ⟨rfl, rfl⟩ := Prod.mk.inj same
  obtain ⟨split, clean⟩ := cut_singleton_eq_some found
  obtain ⟨front, back, whole, blankFront, blankBack⟩ := trim_spec isWhitespace value
  refine ⟨front ++ first, second ++ back, ?_, ?_, trim_blank_append blankFront,
    trim_append_blank blankBack⟩
  · rw [whole, split, List.append_assoc, List.append_assoc, List.cons_append]
  · intro mem
    rcases List.mem_append.mp mem with mem | mem
    · exact absurd (blankFront 64 mem) (by decide)
    · exact clean mem

/-- What the native parser does with an address whose parts are not empty. -/
theorem parseEgress_modifiedUtf8 {κ : Type} {fromHex : Bytes → Int × κ} (clean : 64 ∉ before)
    (named : before ≠ []) (located : after ≠ []) :
    parseEgress fromHex (modifiedUtf8 (before ++ 64 :: after)) =
      if (fromHex (modifiedUtf8 before)).1 ≠ 256 then
        .error "Invalid ADNL public key hex in egress_adnl_address"
      else .ok ((fromHex (modifiedUtf8 before)).2, modifiedUtf8 after) := by
  have parts : modifiedUtf8 (before ++ 64 :: after) =
      modifiedUtf8 before ++ 64 :: modifiedUtf8 after := by
    rw [modifiedUtf8_append]
    rfl
  have first := @length_le_modifiedUtf8 before
  have second := @length_le_modifiedUtf8 after
  have some := List.length_pos_of_ne_nil named
  have some' := List.length_pos_of_ne_nil located
  have inside : ¬ ((modifiedUtf8 before).length = 0 ∨
      (modifiedUtf8 before).length + 1 ≥ (modifiedUtf8 (before ++ 64 :: after)).length) := by
    rw [parts, List.length_append, List.length_cons]
    omega
  rw [parseEgress, find_modifiedUtf8 clean]
  dsimp only
  rw [if_neg inside, parts, List.take_left, ← List.drop_drop, List.drop_left]
  rfl

theorem ascii_of_isHexDigit {c : UInt16} (hex : isHexDigit c = true) : c ≠ 0 ∧ c < 0x80 := by
  simp only [isHexDigit, Bool.or_eq_true, Bool.and_eq_true, decide_eq_true_eq,
    UInt16.le_iff_toNat_le] at hex
  have value : 48 ≤ c.toNat ∧ c.toNat ≤ 102 := by
    rcases hex with (⟨low, high⟩ | ⟨low, high⟩) | ⟨low, high⟩
    · exact ⟨low, Nat.le_trans high (by decide)⟩
    · exact ⟨Nat.le_trans (by decide) low, high⟩
    · exact ⟨Nat.le_trans (by decide) low, Nat.le_trans high (by decide)⟩
  constructor
  · rintro rfl
    exact absurd value.1 (by decide)
  · exact UInt16.lt_iff_toNat_lt.mpr (Nat.lt_of_le_of_lt value.2 (by decide))

/-- The encoding of 64 hexadecimal digits is they themselves. -/
theorem isKeyHex_modifiedUtf8 {text : Text} (hex : matchesPubkeyHex text = true) :
    IsKeyHex (modifiedUtf8 text) := by
  rw [matchesPubkeyHex, Bool.and_eq_true, decide_eq_true_eq, List.all_eq_true] at hex
  obtain ⟨size, digits⟩ := hex
  have same : modifiedUtf8 text = text.map UInt16.toUInt8 := by
    have unit : ∀ c ∈ text, unitUtf8 c = [c.toUInt8] := by
      intro c mem
      exact unitUtf8_ascii (ascii_of_isHexDigit (digits c mem))
    rw [modifiedUtf8, List.flatMap_congr unit, List.map_eq_flatMap]
  rw [same]
  refine ⟨by rw [List.length_map, size], ?_⟩
  intro b mem
  obtain ⟨c, inside, rfl⟩ := List.mem_map.mp mem
  have low := UInt16.lt_iff_toNat_lt.mp (ascii_of_isHexDigit (digits c inside)).2
  have back : c.toUInt8.toUInt16 = c := by
    apply UInt16.toNat_inj.mp
    change c.toNat < 128 at low
    rw [UInt8.toNat_toUInt16, UInt16.toNat_toUInt8]
    omega
  rw [back]
  exact digits c inside

theorem validated {value : Text} (valid : validateEgressAdnlAddress other value = none) :
    ∃ pubkeyHex endpoint, trimmedParts value = some (pubkeyHex, endpoint) ∧
      matchesPubkeyHex pubkeyHex = true ∧ endpoint ≠ [] := by
  unfold validateEgressAdnlAddress at valid
  split at valid
  · cases valid
  · split at valid
    · cases valid
    · next pubkeyHex endpoint parts =>
        split at valid
        · cases valid
        · next hex =>
            split at valid
            · cases valid
            · next located => exact ⟨pubkeyHex, endpoint, parts, by simpa using hex, located⟩

end Agreement

/-- **The validator and the native parser agree on snug addresses.** -/
theorem validated_parsed_iff {κ : Type} {fromHex : Bytes → Int × κ}
    {other : UInt16 → Option Nat}
    (hex : ∀ text, (fromHex text).1 = 256 ↔ IsKeyHex text) {value : Text}
    (valid : validateEgressAdnlAddress other value = none) :
    ∃ pubkeyHex endpoint, trimmedParts value = some (pubkeyHex, endpoint) ∧
      (parseEgress fromHex (modifiedUtf8 value) =
        .ok ((fromHex (modifiedUtf8 pubkeyHex)).2, modifiedUtf8 endpoint) ↔ Snug value) := by
  obtain ⟨pubkeyHex, endpoint, parts, isHex, located⟩ := validated valid
  refine ⟨pubkeyHex, endpoint, parts, ?_⟩
  obtain ⟨before, after, rfl, clean, rfl, rfl⟩ := trimmedParts_eq_some parts
  have keyHex := isKeyHex_modifiedUtf8 isHex
  have named : before ≠ [] := by
    rintro rfl
    cases isHex
  have nonempty : after ≠ [] := by
    rintro rfl
    exact located rfl
  rw [parseEgress_modifiedUtf8 clean named nonempty]
  constructor
  · intro parsed
    split at parsed
    · cases parsed
    · next whole =>
        obtain ⟨-, host⟩ := Prod.mk.inj (Except.ok.inj parsed)
        refine ⟨before, after, rfl, clean, ?_, ?_⟩
        · -- 64 bytes hold the digits and nothing else
          obtain ⟨front, back, around, -, -⟩ := trim_spec isWhitespace before
          have size := (hex _).mp (not_not.mp whole)
          have untrimmed : before = trim isWhitespace before := by
            apply eq_of_length_modifiedUtf8 around
            rw [size.1, keyHex.1]
          rw [untrimmed]
          exact trim_bare
        · obtain ⟨front, back, around, -, -⟩ := trim_spec isWhitespace after
          have untrimmed : after = trim isWhitespace after := by
            apply eq_of_length_modifiedUtf8 around
            rw [host]
          rw [untrimmed]
          exact trim_bare
  · rintro ⟨before', after', whole, clean', bareBefore, bareAfter⟩
    have same := @cut_singleton _ _ before after 64 clean
    rw [whole, cut_singleton clean'] at same
    obtain ⟨rfl, rfl⟩ := Prod.mk.inj (Option.some.inj same)
    rw [trim_of_bare bareBefore] at keyHex ⊢
    rw [trim_of_bare bareAfter, if_neg (not_not.mpr ((hex _).mpr keyHex))]

/-! ### Addresses -/

/-- What `from_hex` leaves, as a number. -/
def hexBits (text : Bytes) : Int × Nat :=
  if text.length = 64 ∧ ∀ b ∈ text, isHexDigit b.toUInt16 = true then
    (256, text.foldl (fun acc b => acc * 16 +
      (if b < 58 then b.toNat - 48 else (b.toNat ||| 32) - 87)) 0)
  else (-1, 0)

def sampleAddress : Text :=
  List.replicate 64 97 ++ units "@1.2.3.4:9000"

theorem hexBits_spec (text : Bytes) : (hexBits text).1 = 256 ↔ IsKeyHex text := by
  rw [hexBits, IsKeyHex]
  split
  · next hex => exact ⟨fun _ => hex, fun _ => rfl⟩
  · next other =>
      constructor
      · intro value
        cases value
      · intro hex
        exact absurd hex other

theorem sample_address_agrees :
    validateEgressAdnlAddress (fun _ => none) sampleAddress = none ∧
    ∃ pubkeyHex endpoint, trimmedParts sampleAddress = some (pubkeyHex, endpoint) ∧
      (parseEgress hexBits (modifiedUtf8 sampleAddress) =
        .ok ((hexBits (modifiedUtf8 pubkeyHex)).2, modifiedUtf8 endpoint) ↔
          Snug sampleAddress) := by
  have valid : validateEgressAdnlAddress (fun _ => none) sampleAddress = none := by
    decide +kernel
  exact ⟨valid, validated_parsed_iff hexBits_spec valid⟩

/-- A space before the address passes the validator, and the native parser refuses the
key; a line end behind the address passes both and stays in the host. -/
theorem spaced_address_disagrees :
    validateEgressAdnlAddress (fun _ => none) (32 :: sampleAddress) = none ∧
    parseEgress hexBits (modifiedUtf8 (32 :: sampleAddress)) =
      .error "Invalid ADNL public key hex in egress_adnl_address" ∧
    validateEgressAdnlAddress (fun _ => none) (sampleAddress ++ [10]) = none ∧
    (parseEgress hexBits (modifiedUtf8 (sampleAddress ++ [10]))).map Prod.snd =
      .ok (modifiedUtf8 (units "1.2.3.4:9000") ++ [10]) := by
  decide +kernel

end TonTunnel.EgressAddress
