import Mathlib.Data.List.Basic
import TonTunnel.Protocol.Server

/-!
What `EgressNode` decides from its configuration alone: `config.hpp`, the five
predicates `isClientAllowed`, `isPortAllowed`, `isHostBlocked`,
`isAddressBlocked` and `keyFor` of `egress_node.cpp`, and the two library
conversions between an IPv4 address and its text that they go through.

The one result here is `keyFor_inj`: the text `client#streamId` determines the
client and the stream id, whatever bytes the client id has.
-/

namespace TonTunnel

/-! ### Configuration -/

/-- `Config::Egress`, with its defaults. -/
structure Config.Egress where
  enabled : Bool := true
  maxPayloadBytes : UInt32 := 65536
  allowedPorts : List UInt16 := [80, 443, 8080, 8443, 853]
  blockPrivateIps : Bool := true
  deriving DecidableEq, Repr

/-- `Config`, with its defaults. -/
structure Config where
  transportBackend : Bytes := ascii "adnl"
  adnlLibraryPath : Bytes := ascii "./libton_adnl_backend.so"
  adnlListenAddress : Bytes := ascii "0.0.0.0"
  privateKey : Bytes := []
  listenPort : UInt16 := 30303
  maxStreams : UInt32 := 100
  idleTimeoutSec : UInt32 := 60
  allowedClients : List Bytes := []
  authToken : Bytes := []
  authRequired : Bool := false
  egress : Config.Egress := {}
  deriving DecidableEq, Repr

/-- `isClientAllowed`. -/
def isClientAllowed (cfg : Config) (clientId token : Bytes) : Bool :=
  if !cfg.authToken.isEmpty && token != cfg.authToken then false
  else if cfg.allowedClients.isEmpty then true
  else cfg.allowedClients.any fun allowed => allowed == clientId

/-- `isPortAllowed`. -/
def isPortAllowed (cfg : Config) (port : UInt16) : Bool :=
  cfg.egress.allowedPorts.any fun allowed => allowed == port

/-- `std::tolower` on one byte; the program never leaves the "C" locale. -/
def tolower (c : UInt8) : UInt8 :=
  if 65 ≤ c ∧ c ≤ 90 then c + 32 else c

/-- `isHostBlocked`. -/
def isHostBlocked (host : Bytes) : Bool :=
  let lowered := host.map tolower
  lowered == ascii "localhost" || lowered == ascii "localhost.localdomain"

/-! ### Text forms -/

/-- `std::to_string` of an unsigned number. -/
def toString10 (n : Nat) : Bytes :=
  (Nat.toDigits 10 n).map fun c => c.toNat.toUInt8

/-- The bytes `c_str()` shows to a C function: up to the first NUL. -/
def cString (s : Bytes) : Bytes :=
  s.takeWhile fun c => c != 0

/-- `inet_ntop(AF_INET, ..)` into a buffer of `INET_ADDRSTRLEN` = 16 bytes,
terminator included. The address is the host-order value of `sin_addr`. -/
def inetNtop (addr : UInt32) : Option Bytes :=
  let octet (shift : UInt32) := toString10 ((addr >>> shift) &&& 0xFF).toNat
  let text := octet 24 ++ ascii "." ++ octet 16 ++ ascii "." ++ octet 8 ++ ascii "." ++ octet 0
  if text.length + 1 > 16 then none else some text

/-- The loop of `inet_pton(AF_INET, ..)`: `octets` numbers have been started,
`tmp` holds the finished ones, `cur` the one being read. -/
def inetPtonLoop (src : Bytes) (sawDigit : Bool) (octets : Nat) (tmp : List Nat) (cur : Nat) :
    Option (List Nat) :=
  match src with
  | [] => if octets < 4 then none else some (tmp ++ [cur])
  | ch :: rest =>
      if 48 ≤ ch ∧ ch ≤ 57 then
        let new := cur * 10 + (ch.toNat - 48)
        -- a second digit after a leading zero is refused
        if sawDigit && cur == 0 then none
        else if new > 255 then none
        else if sawDigit then inetPtonLoop rest true octets tmp new
        else if octets + 1 > 4 then none
        else inetPtonLoop rest true (octets + 1) tmp new
      else if ch = 46 ∧ sawDigit then
        if octets = 4 then none else inetPtonLoop rest false octets (tmp ++ [cur]) 0
      else none

/-- `ntohl` of what `inet_pton(AF_INET, ip.c_str(), ..)` stores when it returns 1. -/
def inetPton (ip : Bytes) : Option UInt32 :=
  match inetPtonLoop (cString ip) false 0 [] 0 with
  | some [a, b, c, d] => some (((a * 256 + b) * 256 + c) * 256 + d).toUInt32
  | _ => none

/-- `isAddressBlocked`. -/
def isAddressBlocked (ip : Bytes) : Bool :=
  if ip == ascii "127.0.0.1" || ip == ascii "169.254.169.254" then true
  else
    match inetPton ip with
    | none => true
    | some v =>
        let is10 := v &&& 0xFF000000 == 0x0A000000
        let is172 := v &&& 0xFFF00000 == 0xAC100000
        let is192 := v &&& 0xFFFF0000 == 0xC0A80000
        let isLoopback := v &&& 0xFF000000 == 0x7F000000
        let isLinkLocal := v &&& 0xFFFF0000 == 0xA9FE0000
        is10 || is172 || is192 || isLoopback || isLinkLocal

example : inetNtop 0xC0A80001 = some (ascii "192.168.0.1") := by decide

example : (inetNtop 0xC0A80001).map isAddressBlocked = some true := by decide

/-- `keyFor`. -/
def keyFor (clientId : Bytes) (streamId : UInt32) : Bytes :=
  clientId ++ ascii "#" ++ toString10 streamId.toNat

/-! ### The key determines its parts -/

/-- A separator that occurs in neither tail splits a list in one way only. -/
theorem append_sep_inj {α : Type} {x : α} {l₁ l₂ d₁ d₂ : List α} (h₁ : x ∉ d₁) (h₂ : x ∉ d₂)
    (h : l₁ ++ x :: d₁ = l₂ ++ x :: d₂) : l₁ = l₂ ∧ d₁ = d₂ := by
  rcases List.append_eq_append_iff.mp h with ⟨m, hl, hd⟩ | ⟨m, hl, hd⟩
  · cases m with
    | nil => simpa [hl] using hd
    | cons y ys =>
        -- the second separator would sit inside the first tail
        simp only [List.cons_append, List.cons.injEq] at hd
        exact absurd (hd.2 ▸ by simp) h₁
  · cases m with
    | nil => simpa [hl, eq_comm] using hd
    | cons y ys =>
        simp only [List.cons_append, List.cons.injEq] at hd
        exact absurd (hd.2 ▸ by simp) h₂

/-- The characters of a decimal text come back from its bytes. -/
theorem map_char_toString10 (n : Nat) :
    (toString10 n).map (fun b => Char.ofNat b.toNat) = Nat.toDigits 10 n := by
  unfold toString10
  rw [List.map_map]
  refine (List.map_congr_left fun c hc => ?_).trans (List.map_id _)
  have hdigit := Nat.isDigit_of_mem_toDigits (by decide) (by decide) hc
  have hlt : c.toNat < 256 := by
    simp only [Char.isDigit, Bool.and_eq_true, decide_eq_true_eq] at hdigit
    have : c.val.toNat ≤ 57 := by simpa using UInt32.le_iff_toNat_le.mp hdigit.2
    exact lt_of_le_of_lt this (by decide)
  simp [Nat.mod_eq_of_lt hlt]

/-- `std::to_string` is injective. -/
theorem toString10_inj {m n : Nat} (h : toString10 m = toString10 n) : m = n := by
  have hdigits : Nat.toDigits 10 m = Nat.toDigits 10 n := by
    rw [← map_char_toString10 m, ← map_char_toString10 n, h]
  rw [← Nat.ofDigitChars_ten_toDigits (n := m), ← Nat.ofDigitChars_ten_toDigits (n := n), hdigits]

/-- No decimal text holds the separator `#`. -/
theorem sep_notMem_toString10 (n : Nat) : (35 : UInt8) ∉ toString10 n := by
  intro h
  have hchar : Char.ofNat (35 : UInt8).toNat ∈ Nat.toDigits 10 n := by
    rw [← map_char_toString10 n]
    exact List.mem_map_of_mem h
  have := Nat.isDigit_of_mem_toDigits (by decide) (by decide) hchar
  revert this
  decide

/-- **Keys are composed injectively**: client ids may contain `#` and digits. -/
theorem keyFor_inj {c₁ c₂ : Bytes} {s₁ s₂ : UInt32} (h : keyFor c₁ s₁ = keyFor c₂ s₂) :
    c₁ = c₂ ∧ s₁ = s₂ := by
  unfold keyFor at h
  have hsep : ascii "#" = [35] := by decide
  rw [hsep, List.append_assoc, List.append_assoc] at h
  obtain ⟨hc, hs⟩ :=
    append_sep_inj (sep_notMem_toString10 _) (sep_notMem_toString10 _) h
  exact ⟨hc, UInt32.toNat_inj.mp (toString10_inj hs)⟩

end TonTunnel
