import Mathlib.Data.List.TakeWhile
import TonTunnel.Egress.Mediation
import TonTunnel.Egress.OpenOutcome

/-!
Where an OPEN may lead to.

* The text of an address reads back as the address (`inetPton_dotted`), so the
  masks of `isAddressBlocked` are the five networks they stand for
  (`isAddressBlocked_iff`).
* The loop of `handleOpen` skips the addresses of these networks. 0.0.0.0 is in none
  of them and reaches the egress host as well: the guard holds for the answers of the
  resolver that do not name it (`local_guard_iff`).
* `isHostBlocked` looks at the whole host and `getaddrinfo` at the bytes before the
  first NUL; they are the same name exactly for a host without NUL
  (`checked_name_iff`).
-/

namespace TonTunnel

/-! ### The text of an address -/

/-- The byte of a decimal digit. -/
def digit (d : Nat) : UInt8 := 48 + d.toUInt8

theorem toString10_octet : ∀ n < 256, toString10 n =
    if n < 10 then [digit n]
    else if n < 100 then [digit (n / 10), digit (n % 10)]
    else [digit (n / 100), digit (n / 10 % 10), digit (n % 10)] := by
  decide +kernel

theorem digit_value : ∀ d < 10, (48 ≤ digit d ∧ digit d ≤ 57) ∧ (digit d).toNat - 48 = d := by
  decide

theorem zero_ne_digit : ∀ d < 10, (0 : UInt8) ≠ digit d := by
  decide

theorem zero_notMem_octet : ∀ n < 256, (0 : UInt8) ∉ toString10 n := by
  intro n byte
  rw [toString10_octet n byte]
  split
  · next one => simp [zero_ne_digit n one]
  · split
    · next two => simp [zero_ne_digit (n / 10) (by omega), zero_ne_digit (n % 10) (by omega)]
    · next three =>
        simp [zero_ne_digit (n / 100) (by omega), zero_ne_digit (n / 10 % 10) (by omega),
          zero_ne_digit (n % 10) (by omega)]

theorem length_octet : ∀ n < 256, (toString10 n).length ≤ 3 := by
  intro n byte
  rw [toString10_octet n byte]
  split
  · exact Nat.le_of_ble_eq_true rfl
  · split
    · exact Nat.le_of_ble_eq_true rfl
    · exact Nat.le_refl 3

section Reading

variable {d n octets cur : Nat} {rest : Bytes} {tmp : List Nat}

/-- The first digit of a number. -/
theorem inetPtonLoop_first (small : d < 10) (room : octets < 4) :
    inetPtonLoop (digit d :: rest) false octets tmp 0 =
      inetPtonLoop rest true (octets + 1) tmp d := by
  obtain ⟨range, value⟩ := digit_value d small
  have fits : ¬ d > 255 := by omega
  have room : ¬ octets + 1 > 4 := by omega
  rw [inetPtonLoop, if_pos range, value]
  simp [fits, room]

/-- A further digit, behind a number that does not start with 0. -/
theorem inetPtonLoop_digit (small : d < 10) (more : cur ≠ 0) (fits : cur * 10 + d < 256) :
    inetPtonLoop (digit d :: rest) true octets tmp cur =
      inetPtonLoop rest true octets tmp (cur * 10 + d) := by
  obtain ⟨range, value⟩ := digit_value d small
  have fits : ¬ cur * 10 + d > 255 := by omega
  rw [inetPtonLoop, if_pos range, value]
  simp [more, fits]

/-- A whole number. -/
theorem inetPtonLoop_octet (byte : n < 256) (room : octets < 4) :
    inetPtonLoop (toString10 n ++ rest) false octets tmp 0 =
      inetPtonLoop rest true (octets + 1) tmp n := by
  rw [toString10_octet n byte]
  split
  · next one => exact inetPtonLoop_first one room
  · next notOne =>
      split
      · next two =>
          have whole : n / 10 * 10 + n % 10 = n := by omega
          rw [List.cons_append, inetPtonLoop_first (by omega) room, List.singleton_append,
            inetPtonLoop_digit (by omega) (by omega) (by omega), whole]
      · next three =>
          have head : n / 100 * 10 + n / 10 % 10 = n / 10 := by omega
          have whole : n / 10 * 10 + n % 10 = n := by omega
          rw [List.cons_append, inetPtonLoop_first (by omega) room, List.cons_append,
            inetPtonLoop_digit (by omega) (by omega) (by omega), head, List.singleton_append,
            inetPtonLoop_digit (by omega) (by omega) (by omega), whole]

/-- A dot between two numbers. -/
theorem inetPtonLoop_dot (room : octets ≠ 4) :
    inetPtonLoop (46 :: rest) true octets tmp cur =
      inetPtonLoop rest false octets (tmp ++ [cur]) 0 := by
  rw [inetPtonLoop, if_neg (by decide), if_pos (by decide), if_neg room]

end Reading

theorem octet_shift {addr shift : UInt32} (small : shift.toNat < 32) :
    ((addr >>> shift) &&& 0xFF).toNat = addr.toNat / 2 ^ shift.toNat % 256 := by
  rw [UInt32.toNat_and, UInt32.toNat_shiftRight, Nat.mod_eq_of_lt small,
    Nat.shiftRight_eq_div_pow]
  exact Nat.and_two_pow_sub_one_eq_mod _ 8

/-- The text of an address: four numbers and three dots. -/
def dotted (addr : UInt32) : Bytes :=
  let octet (k : Nat) := toString10 (addr.toNat / 2 ^ k % 256)
  octet 24 ++ 46 :: (octet 16 ++ 46 :: (octet 8 ++ 46 :: octet 0))

theorem inetNtop_eq (addr : UInt32) : inetNtop addr = some (dotted addr) := by
  have text : ((toString10 ((addr >>> 24) &&& 0xFF).toNat ++ ascii "." ++
      toString10 ((addr >>> 16) &&& 0xFF).toNat ++ ascii "." ++
      toString10 ((addr >>> 8) &&& 0xFF).toNat ++ ascii "." ++
      toString10 ((addr >>> 0) &&& 0xFF).toNat)) = dotted addr := by
    rw [octet_shift (by decide), octet_shift (by decide), octet_shift (by decide),
      octet_shift (by decide)]
    simp [dotted, show ascii "." = [46] by decide]
  have short : ¬ (dotted addr).length + 1 > 16 := by
    have l (k : Nat) := length_octet (addr.toNat / 2 ^ k % 256) (Nat.mod_lt _ (by decide))
    have l₂₄ := l 24
    have l₁₆ := l 16
    have l₈ := l 8
    have l₀ := l 0
    simp only [dotted, List.length_append, List.length_cons]
    omega
  rw [inetNtop]
  simp only [text, if_neg short]

theorem cString_dotted (addr : UInt32) : cString (dotted addr) = dotted addr := by
  have clean (k : Nat) : (0 : UInt8) ∉ toString10 (addr.toNat / 2 ^ k % 256) :=
    zero_notMem_octet _ (Nat.mod_lt _ (by decide))
  have zero : (0 : UInt8) ∉ dotted addr := by
    simp only [dotted, List.mem_append, List.mem_cons, clean, false_or, or_false]
    decide
  rw [cString, List.takeWhile_eq_self_iff]
  intro b mem
  rw [bne_iff_ne]
  rintro rfl
  exact zero mem

/-- **The text of an address reads back.** -/
theorem inetPton_dotted (addr : UInt32) : inetPton (dotted addr) = some addr := by
  have byte (k : Nat) : addr.toNat / 2 ^ k % 256 < 256 := Nat.mod_lt _ (by decide)
  have loop : inetPtonLoop (dotted addr) false 0 [] 0 =
      some [addr.toNat / 2 ^ 24 % 256, addr.toNat / 2 ^ 16 % 256, addr.toNat / 2 ^ 8 % 256,
        addr.toNat / 2 ^ 0 % 256] := by
    unfold dotted
    dsimp only
    rw [← List.append_nil (toString10 (addr.toNat / 2 ^ 0 % 256)),
      inetPtonLoop_octet (byte 24) (by decide), inetPtonLoop_dot (by decide),
      inetPtonLoop_octet (byte 16) (by decide), inetPtonLoop_dot (by decide),
      inetPtonLoop_octet (byte 8) (by decide), inetPtonLoop_dot (by decide),
      inetPtonLoop_octet (byte 0) (by decide), inetPtonLoop]
    rfl
  rw [inetPton, cString_dotted, loop]
  have small := addr.toNat_lt
  have value : ((addr.toNat / 2 ^ 24 % 256 * 256 + addr.toNat / 2 ^ 16 % 256) * 256 +
      addr.toNat / 2 ^ 8 % 256) * 256 + addr.toNat / 2 ^ 0 % 256 = addr.toNat := by omega
  simp only [value, Option.some.injEq]
  exact UInt32.ofNat_toNat

/-! ### Masks and networks -/

/-- A mask of the high bits. -/
theorem and_high_bits (x m k : Nat) (small : x < 2 ^ (m + k)) :
    x &&& ((2 ^ m - 1) <<< k) = x / 2 ^ k * 2 ^ k := by
  rw [← Nat.shiftLeft_eq, ← Nat.shiftRight_eq_div_pow]
  apply Nat.eq_of_testBit_eq
  intro i
  simp only [Nat.testBit_and, Nat.testBit_shiftLeft, Nat.testBit_shiftRight,
    Nat.testBit_two_pow_sub_one]
  by_cases low : k ≤ i
  · have whole : k + (i - k) = i := by omega
    by_cases high : i - k < m
    · simp [low, high, whole]
    · have zero : x.testBit i = false := by
        refine Nat.testBit_lt_two_pow (lt_of_lt_of_le small ?_)
        exact Nat.pow_le_pow_right (by decide) (by omega)
      simp [low, high, whole, zero]
  · simp [low]

/-- The address is in the network with this prefix of `m` bits, in CIDR notation `net/m`. -/
def InNetwork (addr net : UInt32) (m : Nat) : Prop :=
  addr.toNat / 2 ^ (32 - m) = net.toNat / 2 ^ (32 - m)

instance (addr net : UInt32) (m : Nat) : Decidable (InNetwork addr net m) :=
  inferInstanceAs (Decidable (_ = _))

theorem masked_iff {addr mask net : UInt32} {m : Nat} (bits : m ≤ 32)
    (isMask : mask.toNat = (2 ^ m - 1) <<< (32 - m))
    (isNet : net.toNat = net.toNat / 2 ^ (32 - m) * 2 ^ (32 - m)) :
    addr &&& mask = net ↔ InNetwork addr net m := by
  have small : addr.toNat < 2 ^ (m + (32 - m)) := by
    rw [Nat.add_sub_cancel' bits]
    exact addr.toNat_lt
  rw [← UInt32.toNat_inj, UInt32.toNat_and, isMask, and_high_bits _ _ _ small, isNet, InNetwork]
  exact Nat.mul_left_inj (Nat.two_pow_pos _).ne'

/-- The five networks of `isAddressBlocked`. -/
def InPrivateNetwork (addr : UInt32) : Prop :=
  InNetwork addr 0x7F000000 8 ∨ InNetwork addr 0x0A000000 8 ∨ InNetwork addr 0xAC100000 12 ∨
    InNetwork addr 0xC0A80000 16 ∨ InNetwork addr 0xA9FE0000 16

/-- An address that leads back to the egress host or into its networks. -/
def LocalTarget (addr : UInt32) : Prop := InPrivateNetwork addr ∨ addr = 0

instance (addr : UInt32) : Decidable (InPrivateNetwork addr) := inferInstanceAs (Decidable (_ ∨ _))

instance (addr : UInt32) : Decidable (LocalTarget addr) := inferInstanceAs (Decidable (_ ∨ _))

/-- **The string comparisons and masks of `isAddressBlocked` are the five networks.** -/
theorem isAddressBlocked_iff (addr : UInt32) :
    isAddressBlocked (dotted addr) = true ↔ InPrivateNetwork addr := by
  have masks : ((((addr &&& 0xFF000000 == 0x0A000000) || (addr &&& 0xFFF00000 == 0xAC100000)) ||
      (addr &&& 0xFFFF0000 == 0xC0A80000)) || (addr &&& 0xFF000000 == 0x7F000000) ||
      (addr &&& 0xFFFF0000 == 0xA9FE0000)) = true ↔ InPrivateNetwork addr := by
    simp only [Bool.or_eq_true, beq_iff_eq, InPrivateNetwork]
    rw [masked_iff (m := 8) (by decide) (by decide) (by decide),
      masked_iff (m := 12) (by decide) (by decide) (by decide),
      masked_iff (m := 16) (by decide) (by decide) (by decide),
      masked_iff (m := 8) (by decide) (by decide) (by decide),
      masked_iff (m := 16) (by decide) (by decide) (by decide)]
    tauto
  have parsed (text : Bytes) (value : UInt32) (reads : inetPton text = some value)
      (is : dotted addr = text) : addr = value := by
    rw [← is, inetPton_dotted] at reads
    exact Option.some.inj reads
  unfold isAddressBlocked
  split
  · next named =>
      simp only [Bool.or_eq_true, beq_iff_eq] at named
      apply iff_of_true rfl
      rcases named with named | named
      · rw [parsed _ 0x7F000001 (by decide) named]
        decide
      · rw [parsed _ 0xA9FEA9FE (by decide) named]
        decide
  · rw [inetPton_dotted]
    exact masks

end TonTunnel

namespace TonTunnel.Egress

open Interleaving (Reach Machine anyStep)

/-! ### The loop over the addresses -/

/-- `handleOpen` has a connection. -/
def OpenPc.connected : OpenPc → Bool
  | .makeStream _ _ | .register _ | .ack _ | .startThread _ | .assign _ => true
  | _ => false

/-- The message thread is in `handleOpen`. -/
def inHandleOpen (s : System) (_ : ThreadId) (_ : Act) : Prop := (s.loc .msg).pc.inOpen = true

/-- What the guard promises of a call of `handleOpen` that has come from `s₁`, where the
resolver answered `addrs`, to `s`: no attempt at a local address was made, the refusal is
"destination blocked" exactly when all addresses are local, and then there is no connection. -/
structure GuardHolds (ctx : MsgCtx) (q : OpenMessage) (addrs : List UInt32) (s₁ s : System) :
    Prop where
  attempts {client : Bytes} {q' : OpenMessage} {count : UInt32} {ip : Bytes} {addr : UInt32} :
    Event.connect client q' count ip ∈ s.shared.log.drop s₁.shared.log.length →
      inetPton ip = some addr → ¬ LocalTarget addr
  refusal {text : Bytes} : (s.loc .msg).pc = .opening ctx q (.fail text) →
    (text = ascii "destination blocked" ↔ addrs ≠ [] ∧ ∀ addr ∈ addrs, LocalTarget addr)
  connected {pc : OpenPc} : (s.loc .msg).pc = .opening ctx q pc → pc.connected = true →
    ∃ addr ∈ addrs, ¬ LocalTarget addr

/-- How far the loop over `addrs` is. -/
def LoopAt (addrs : List UInt32) : OpenPc → Prop
  | .connect _ rest blockedOnly =>
      addrs ≠ [] ∧ ∃ tried, addrs = tried ++ rest ∧
        (blockedOnly = true ↔ ∀ addr ∈ tried, InPrivateNetwork addr)
  | .socket _ _ rest | .connecting _ _ rest _ _ =>
      ∃ tried, addrs = tried ++ rest ∧ ∃ addr ∈ tried, ¬ InPrivateNetwork addr
  | .fail text => text = ascii "destination blocked" ↔
      addrs ≠ [] ∧ ∀ addr ∈ addrs, InPrivateNetwork addr
  | .caught _ => True
  | pc => pc.connected = true ∧ ∃ addr ∈ addrs, ¬ InPrivateNetwork addr

/-- The attempts are at addresses of the list that are in no private network. -/
def AttemptsOf (addrs : List UInt32) (es : List Event) : Prop :=
  ∀ client q count ip, Event.connect client q count ip ∈ es →
    ∃ addr ∈ addrs, ip = dotted addr ∧ ¬ InPrivateNetwork addr

section Loop

variable {cfg : Config} {client : Bytes} {q : OpenMessage} {count : UInt32} {n n' : Node} {a : Act}
  {addr : UInt32} {rest addrs : List UInt32} {blockedOnly : Bool} {out : OpenOut} {pc pc' : OpenPc}

/-- One address of the loop: it is skipped if it is in a private network, and tried if not. -/
theorem openStep_connect (blocks : cfg.egress.blockPrivateIps = true) :
    openStep cfg client q (.connect count (addr :: rest) blockedOnly) n .go =
      if InPrivateNetwork addr then some (.more (.connect count rest blockedOnly), n)
      else some (.more (.socket count (dotted addr) rest),
        n.emit (.connect client q count (dotted addr))) := by
  simp only [openStep, inetNtop_eq, blocks, Bool.true_and, isAddressBlocked_iff]

theorem LoopAt.step (blocks : cfg.egress.blockPrivateIps = true) (h : LoopAt addrs pc)
    (step : openStep cfg client q pc n a = some (.more pc', n')) : LoopAt addrs pc' := by
  cases openStep_move step with
  | refuse | pass | quotaLeft | unresolved | resolved => exact absurd h.1 Bool.false_ne_true
  | quotaThrows | registerThrows | throws => trivial
  | @exhausted _ blockedOnly =>
      obtain ⟨some_, tried, whole, blocked⟩ := h
      rw [List.append_nil] at whole
      subst whole
      cases blockedOnly with
      | true => exact iff_of_true rfl ⟨some_, blocked.mp rfl⟩
      | false => exact iff_of_false (by decide) fun all => Bool.false_ne_true (blocked.mpr all.2)
  | @skip _ addr rest blockedOnly =>
      rw [openStep_connect blocks] at step
      split at step
      · next inside =>
          obtain ⟨some_, tried, whole, blocked⟩ := h
          refine ⟨some_, tried ++ [addr], by simp [whole], blocked.trans ?_⟩
          simp [or_imp, forall_and, inside]
      · cases step
  | @attempt _ addr rest _ _ =>
      rw [openStep_connect blocks] at step
      split at step
      · cases step
      · next outside =>
          obtain ⟨-, tried, whole, -⟩ := h
          exact ⟨tried ++ [addr], by simp [whole], addr, by simp, outside⟩
  | noSocket | disconnected =>
      obtain ⟨tried, whole, addr, mem, outside⟩ := h
      refine ⟨?_, tried, whole, iff_of_false Bool.false_ne_true fun all => outside (all addr mem)⟩
      rintro rfl
      simp_all
  | socket => exact h
  | connected =>
      obtain ⟨tried, rfl, addr, mem, outside⟩ := h
      exact ⟨rfl, addr, List.mem_append_left _ mem, outside⟩
  | makeStream | register | ack | startThread => exact ⟨rfl, h.2⟩

/-- The attempts of a step of the loop. -/
theorem LoopAt.attempts {ctx : MsgCtx} {e : Event} (blocks : cfg.egress.blockPrivateIps = true)
    (h : LoopAt addrs pc) (emits : Emits cfg n .msg { pc := .opening ctx q pc } e) :
    AttemptsOf addrs [e] := by
  intro client' q' count' ip mem
  cases List.mem_singleton.mp mem
  cases emits with
  | @connects _ _ _ addr _ _ _ text free =>
      obtain ⟨-, tried, rfl, -⟩ := h
      rw [inetNtop_eq, Option.some.injEq] at text
      refine ⟨addr, by simp, text.symm, ?_⟩
      intro inside
      rw [← isAddressBlocked_iff, text, free blocks] at inside
      exact Bool.false_ne_true inside

/-- Only the message thread connects. -/
theorem Emits.connects_msg {t : ThreadId} {l : Loc t} {ip : Bytes}
    (h : Emits cfg n t l (.connect client q count ip)) : t = .msg := by
  cases h
  rfl

/-- Only `handleOpen` calls the resolver. -/
theorem Emits.resolve_at {s : System} {t : ThreadId} {name : Bytes}
    (h : Emits cfg n t (s.loc t) (.getaddrinfo name)) :
    ∃ ctx q count, (s.loc .msg).pc = .opening ctx q (.resolve count) ∧ name = cString q.host := by
  generalize at_ : s.loc t = l at h
  cases h
  exact ⟨_, _, _, by rw [at_], rfl⟩

theorem AttemptsOf.append {es es' : List Event} (h : AttemptsOf addrs es)
    (h' : ∀ e ∈ es', AttemptsOf addrs [e]) : AttemptsOf addrs (es ++ es') := by
  intro client q count ip mem
  rcases List.mem_append.mp mem with mem | mem
  · exact h client q count ip mem
  · exact h' _ mem client q count ip List.mem_cons_self

end Loop

section Call

variable {cfg : Config} {ctx : MsgCtx} {q : OpenMessage} {count : UInt32} {addrs : List UInt32}
  {s₀ s₁ s s' : System} {pc pc' : OpenPc} {a : Act} {n' : Node} {out : OpenOut}

/-- A step of `handleOpen` as a step of the process. -/
theorem next_opening (at_ : s.loc .msg = { pc := .opening ctx q pc })
    (step : openStep cfg ctx.clientId q pc s.shared a = some (.more pc', n')) :
    ∃ s', (machine cfg).next s .msg a = some s' ∧
      s'.loc .msg = { pc := .opening ctx q pc' } ∧ s'.shared = n' := by
  have moves : (machine cfg).step .msg (s.loc .msg) s.shared a =
      some ({ pc := .opening ctx q pc' }, n') := by
    rw [at_]
    change (openStep cfg ctx.clientId q pc s.shared a).map _ = _
    rw [step]
    rfl
  rw [Machine.next, moves]
  exact ⟨_, rfl, by simp, rfl⟩

/-- A step of the message thread in `handleOpen`: it goes on, or the call is over. -/
theorem opening_next (at_ : s.loc .msg = { pc := .opening ctx q pc })
    (next : (machine cfg).next s .msg a = some s') :
    (∃ pc', openStep cfg ctx.clientId q pc s.shared a = some (.more pc', s'.shared) ∧
      s'.loc .msg = { pc := .opening ctx q pc' }) ∨ (s'.loc .msg).pc.inOpen = false := by
  obtain ⟨l, n, step, rfl⟩ := Machine.next_eq_some next
  rw [at_] at step
  change (openStep cfg ctx.clientId q pc s.shared a).map _ = _ at step
  rw [Option.map_eq_some_iff] at step
  obtain ⟨⟨out, n'⟩, step, eq⟩ := step
  cases out with
  | more pc' =>
      cases eq
      exact .inl ⟨pc', step, by simp⟩
  | returned | escaped =>
      cases eq
      exact .inr (by simp [MsgPc.inOpen])

/-- What a call of `handleOpen` keeps while it goes through `addrs`. -/
structure InCall (ctx : MsgCtx) (q : OpenMessage) (addrs : List UInt32) (s₁ s : System) : Prop where
  attempts : ∃ es, s.shared.log = s₁.shared.log ++ es ∧ AttemptsOf addrs es
  loop : (∃ pc, s.loc .msg = { pc := .opening ctx q pc } ∧ LoopAt addrs pc) ∨
    (s.loc .msg).pc.inOpen = false

theorem InCall.step {t : ThreadId} (blocks : cfg.egress.blockPrivateIps = true)
    (h : InCall ctx q addrs s₁ s) (during : inHandleOpen s t a)
    (next : (machine cfg).next s t a = some s') : InCall ctx q addrs s₁ s' := by
  obtain ⟨⟨es, old, attempts⟩, ⟨pc, at_, loop⟩ | left⟩ := h
  · obtain ⟨l, n, move, is⟩ := next_move next
    obtain ⟨es', grown, emits⟩ := move.log
    have log : s'.shared.log = s₁.shared.log ++ (es ++ es') := by
      rw [is, ← List.append_assoc, ← old]
      exact grown
    by_cases mine : t = .msg
    · subst mine
      rw [at_] at emits
      refine ⟨⟨_, log, attempts.append fun e mem => loop.attempts blocks (emits e mem)⟩, ?_⟩
      rcases opening_next at_ next with ⟨pc', step, at_'⟩ | left
      · exact .inl ⟨pc', at_', loop.step blocks step⟩
      · exact .inr left
    · refine ⟨⟨_, log, attempts.append ?_⟩, .inl ⟨pc, ?_, loop⟩⟩
      · intro e mem client' q' count' ip is'
        cases List.mem_singleton.mp is'
        exact absurd (emits _ mem).connects_msg mine
      · rw [is, ← at_]
        exact Function.update_of_ne (Ne.symm mine) _ _
  · exact absurd during (by simp [inHandleOpen, left])

/-- Where `handleOpen` goes on when the resolver answered. -/
def resolvedPc (count : UInt32) (addrs : List UInt32) : OpenPc :=
  if addrs = [] then .fail (ascii "DNS resolve failed") else .connect count addrs true

theorem openStep_resolved {client : Bytes} {n : Node} :
    openStep cfg client q (.resolve count) n (.resolved (some addrs)) =
      some (.more (resolvedPc count addrs), n.emit (.getaddrinfo (cString q.host))) := by
  cases addrs with
  | nil => rfl
  | cons addr rest => rfl

theorem resolved_next (at_ : s₀.loc .msg = { pc := .opening ctx q (.resolve count) })
    (next : (machine cfg).next s₀ .msg (.resolved (some addrs)) = some s₁) :
    s₁.loc .msg = { pc := .opening ctx q (resolvedPc count addrs) } := by
  obtain ⟨s', next', at', -⟩ := next_opening at_ openStep_resolved
  rw [next', Option.some.injEq] at next
  rw [← next, at']

theorem InCall.start (at_ : s₀.loc .msg = { pc := .opening ctx q (.resolve count) })
    (next : (machine cfg).next s₀ .msg (.resolved (some addrs)) = some s₁) :
    InCall ctx q addrs s₁ s₁ := by
  refine ⟨⟨[], by simp, fun _ _ _ _ mem => absurd mem List.not_mem_nil⟩, .inl
    ⟨_, resolved_next at_ next, ?_⟩⟩
  unfold resolvedPc
  split
  · next none => exact iff_of_false (by decide) fun all => all.1 none
  · next some_ => exact ⟨some_, [], rfl, iff_of_true rfl fun _ mem => absurd mem List.not_mem_nil⟩

theorem InCall.guard (h : InCall ctx q addrs s₁ s) (proper : 0 ∉ addrs) :
    GuardHolds ctx q addrs s₁ s := by
  obtain ⟨⟨es, log, attempts⟩, loop⟩ := h
  have same {addr : UInt32} (mem : addr ∈ addrs) : LocalTarget addr ↔ InPrivateNetwork addr := by
    apply or_iff_left
    rintro rfl
    exact proper mem
  have at_ {pc : OpenPc} (is : (s.loc .msg).pc = .opening ctx q pc) : LoopAt addrs pc := by
    rcases loop with ⟨pc', at_, loop⟩ | left
    · rw [at_] at is
      cases is
      exact loop
    · rw [is] at left
      cases left
  constructor
  · intro client q' count ip addr mem reads
    rw [log, List.drop_left] at mem
    obtain ⟨addr', mem', rfl, outside⟩ := attempts _ _ _ _ mem
    rw [inetPton_dotted, Option.some.injEq] at reads
    subst reads
    exact (same mem').not.mpr outside
  · intro text is
    have told : text = ascii "destination blocked" ↔
        addrs ≠ [] ∧ ∀ addr ∈ addrs, InPrivateNetwork addr := at_ is
    rw [told]
    exact and_congr_right fun _ => forall₂_congr fun addr mem => (same mem).symm
  · intro pc is connected
    obtain ⟨addr, mem, outside⟩ : ∃ addr ∈ addrs, ¬ InPrivateNetwork addr := by
      cases pc <;> first | exact absurd connected Bool.false_ne_true | exact (at_ is).2
    exact ⟨addr, mem, (same mem).not.mpr outside⟩

/-- The loop comes to 0.0.0.0 when no socket can be made for what stands before it. -/
theorem zero_attempted (blocks : cfg.egress.blockPrivateIps = true) (named : 0 ∈ addrs)
    {blockedOnly : Bool} (h : Reach (machine cfg) inHandleOpen s₁ s)
    (at_ : s.loc .msg = { pc := .opening ctx q (.connect count addrs blockedOnly) })
    (grown : ∃ es, s.shared.log = s₁.shared.log ++ es) :
    ∃ s', Reach (machine cfg) inHandleOpen s₁ s' ∧ ∃ es, s'.shared.log = s₁.shared.log ++ es ∧
      Event.connect ctx.clientId q count (dotted 0) ∈ es := by
  induction addrs generalizing s blockedOnly with
  | nil => cases named
  | cons addr rest ih =>
      obtain ⟨es, grown⟩ := grown
      have during : inHandleOpen s .msg .go := by simp [inHandleOpen, at_, MsgPc.inOpen]
      have step : openStep cfg ctx.clientId q (.connect count (addr :: rest) blockedOnly)
          s.shared .go = _ := openStep_connect blocks
      by_cases inside : InPrivateNetwork addr
      · rw [if_pos inside] at step
        have later : 0 ∈ rest := by
          refine (List.mem_cons.mp named).resolve_left ?_
          rintro rfl
          exact absurd inside (by decide)
        obtain ⟨s', next, at', shared⟩ := next_opening at_ step
        exact ih later (h.step during next) at' ⟨es, by rw [shared, grown]⟩
      · rw [if_neg inside] at step
        obtain ⟨s', next, at', shared⟩ := next_opening at_ step
        have attempted := h.step during next
        have log : s'.shared.log =
            s₁.shared.log ++ (es ++ [.connect ctx.clientId q count (dotted addr)]) := by
          rw [← List.append_assoc, ← grown, shared]
          rfl
        by_cases zero : addr = 0
        · subst zero
          exact ⟨s', attempted, _, log, by simp⟩
        · have later : 0 ∈ rest := (List.mem_cons.mp named).resolve_left (Ne.symm zero)
          have noSocket : openStep cfg ctx.clientId q (.socket count (dotted addr) rest) s'.shared
              (.socketRet none) = some (.more (.connect count rest false), s'.shared) := rfl
          obtain ⟨s'', next', at'', shared'⟩ := next_opening at' noSocket
          refine ih later (attempted.step ?_ next') at'' ⟨_, by rw [shared', log]⟩
          simp [inHandleOpen, at', MsgPc.inOpen]

/-- The loop passes over what is left of the list, and the OPEN is refused. -/
theorem refused_of_rest (blocks : cfg.egress.blockPrivateIps = true)
    (all : ∀ addr ∈ addrs, InPrivateNetwork addr) (h : Reach (machine cfg) inHandleOpen s₁ s)
    (at_ : s.loc .msg = { pc := .opening ctx q (.connect count addrs true) }) :
    ∃ s', Reach (machine cfg) inHandleOpen s₁ s' ∧
      (s'.loc .msg).pc = .opening ctx q (.fail (ascii "destination blocked")) := by
  induction addrs generalizing s with
  | nil =>
      have during : inHandleOpen s .msg .go := by simp [inHandleOpen, at_, MsgPc.inOpen]
      have step : openStep cfg ctx.clientId q (.connect count [] true) s.shared .go =
          some (.more (.fail (ascii "destination blocked")), s.shared) := rfl
      obtain ⟨s', next, at', -⟩ := next_opening at_ step
      exact ⟨s', h.step during next, by rw [at']⟩
  | cons addr rest ih =>
      have during : inHandleOpen s .msg .go := by simp [inHandleOpen, at_, MsgPc.inOpen]
      have step : openStep cfg ctx.clientId q (.connect count (addr :: rest) true) s.shared .go =
          _ := openStep_connect blocks
      rw [if_pos (all addr List.mem_cons_self)] at step
      obtain ⟨s', next, at', -⟩ := next_opening at_ step
      exact ih (fun addr mem => all addr (List.mem_cons_of_mem _ mem)) (h.step during next) at'

/-- **A call whose addresses are all private comes to its refusal**, however far the loop is and
whatever the other threads have done meanwhile. -/
theorem private_answers_refused (blocks : cfg.egress.blockPrivateIps = true)
    (at_ : s₀.loc .msg = { pc := .opening ctx q (.resolve count) })
    (next : (machine cfg).next s₀ .msg (.resolved (some addrs)) = some s₁)
    (all : ∀ addr ∈ addrs, InPrivateNetwork addr) (h : Reach (machine cfg) inHandleOpen s₁ s)
    {count' : UInt32} {rest : List UInt32} {blockedOnly : Bool}
    (loops : (s.loc .msg).pc = .opening ctx q (.connect count' rest blockedOnly)) :
    ∃ s', Reach (machine cfg) inHandleOpen s s' ∧
      (s'.loc .msg).pc = .opening ctx q (.fail (ascii "destination blocked")) := by
  have call : InCall ctx q addrs s₁ s :=
    h.invariant (.start at_ next) fun _ _ _ _ _ before during next => before.step blocks during next
  rcases call.loop with ⟨pc, here, loop⟩ | left
  · rw [here] at loops
    cases loops
    obtain ⟨-, tried, whole, blocked⟩ := loop
    have tried_ : ∀ addr ∈ tried, InPrivateNetwork addr := fun addr mem =>
      all addr (by rw [whole]; exact List.mem_append_left _ mem)
    cases blocked.mpr tried_
    exact refused_of_rest blocks
      (fun addr mem => all addr (by rw [whole]; exact List.mem_append_right _ mem)) .start here
  · rw [loops] at left
    cases left

/-- **The private-address guard holds exactly for answers without 0.0.0.0.** -/
theorem local_guard_iff (blocks : cfg.egress.blockPrivateIps = true)
    (at_ : s₀.loc .msg = { pc := .opening ctx q (.resolve count) })
    (next : (machine cfg).next s₀ .msg (.resolved (some addrs)) = some s₁) :
    (∀ s, Reach (machine cfg) inHandleOpen s₁ s → GuardHolds ctx q addrs s₁ s) ↔ 0 ∉ addrs := by
  constructor
  · intro guard named
    have at₁ := resolved_next at_ next
    rw [resolvedPc, if_neg (List.ne_nil_of_mem named)] at at₁
    obtain ⟨s', h, es, log, mem⟩ := zero_attempted blocks named .start at₁ ⟨[], by simp⟩
    have drop : s'.shared.log.drop s₁.shared.log.length = es := by rw [log, List.drop_left]
    exact (guard s' h).attempts (drop ▸ mem) (inetPton_dotted 0) (.inr rfl)
  · intro proper s h
    have call : InCall ctx q addrs s₁ s :=
      h.invariant (.start at_ next) fun _ _ _ _ _ before during next => before.step blocks during next
    exact call.guard proper

end Call

/-- An OPEN of client `A`, up to the resolver. -/
def openResolving : List (ThreadId × Act) :=
  List.append openEntered (List.replicate 2 (.msg, .go))

theorem public_address_guarded :
    ∃ s₁, (machine {}).next ((machine {}).run init openResolving) .msg
        (.resolved (some [0x7F000001, 0x08080808])) = some s₁ ∧
      ∀ s, Reach (machine {}) inHandleOpen s₁ s →
        GuardHolds ⟨ascii "A", openStream1, 12⟩ ⟨1, ascii "h", 80, []⟩ [0x7F000001, 0x08080808]
          s₁ s := by
  have at_ : ((machine {}).run init openResolving).loc .msg =
      { pc := .opening ⟨ascii "A", openStream1, 12⟩ ⟨1, ascii "h", 80, []⟩ (.resolve 0) } := by
    decide
  obtain ⟨s₁, next, -⟩ := next_opening at_ openStep_resolved
  exact ⟨s₁, next, (local_guard_iff rfl at_ next).mpr (by decide)⟩

/-- The resolver answers 0.0.0.0, and `handleOpen` connects there. -/
theorem unspecified_address_attempted :
    ∃ s₁ s, (machine {}).next ((machine {}).run init openResolving) .msg
        (.resolved (some [0])) = some s₁ ∧
      Reach (machine {}) inHandleOpen s₁ s ∧
      ¬ GuardHolds ⟨ascii "A", openStream1, 12⟩ ⟨1, ascii "h", 80, []⟩ [0] s₁ s := by
  have at_ : ((machine {}).run init openResolving).loc .msg =
      { pc := .opening ⟨ascii "A", openStream1, 12⟩ ⟨1, ascii "h", 80, []⟩ (.resolve 0) } := by
    decide
  obtain ⟨s₁, next, at₁, -⟩ := next_opening (a := .resolved (some [0])) at_ openStep_resolved
  have outside : ¬ InPrivateNetwork 0 := by decide
  have tries : openStep {} (ascii "A") ⟨1, ascii "h", 80, []⟩ (resolvedPc 0 [0]) s₁.shared .go =
      _ := (openStep_connect rfl).trans (if_neg outside)
  obtain ⟨s, next', -, shared⟩ := next_opening at₁ tries
  refine ⟨s₁, s, next, .step .start (by simp [inHandleOpen, at₁, MsgPc.inOpen]) next', ?_⟩
  intro guard
  have attempt : Event.connect (ascii "A") ⟨1, ascii "h", 80, []⟩ 0 (dotted 0) ∈
      s.shared.log.drop s₁.shared.log.length := by
    rw [shared]
    simp [Node.emit]
  exact guard.attempts attempt (inetPton_dotted 0) (.inr rfl)

/-! ### The name that is resolved -/

/-- The two names are the same but for the case of ASCII letters. -/
def SameName (a b : Bytes) : Prop := a.map tolower = b.map tolower

/-- The name given to the resolver is the host that was checked, and no name of the egress host. -/
structure CheckedName (host name : Bytes) : Prop where
  whole : name = host
  notLocalhost : ¬ SameName name (ascii "localhost")
  notLocaldomain : ¬ SameName name (ascii "localhost.localdomain")

theorem cString_eq_self_iff (s : Bytes) : cString s = s ↔ 0 ∉ s := by
  rw [cString, List.takeWhile_eq_self_iff]
  constructor
  · intro all mem
    exact absurd (all 0 mem) (by decide)
  · intro zero b mem
    rw [bne_iff_ne]
    rintro rfl
    exact zero mem

theorem isHostBlocked_iff (host : Bytes) : isHostBlocked host = true ↔
    SameName host (ascii "localhost") ∨ SameName host (ascii "localhost.localdomain") := by
  have low : (ascii "localhost").map tolower = ascii "localhost" := by decide
  have lowDomain : (ascii "localhost.localdomain").map tolower = ascii "localhost.localdomain" := by
    decide
  simp only [isHostBlocked, Bool.or_eq_true, beq_iff_eq, SameName, low, lowDomain]

/-- **The name that is checked is the name that is resolved** exactly when the host holds no
NUL: every call of `getaddrinfo` is made by `handleOpen` for an OPEN that was received. -/
theorem checked_name_iff {cfg : Config} {s s' : System} {t : ThreadId} {a : Act} {name : Bytes}
    (h : Reaches cfg s) (next : (machine cfg).next s t a = some s')
    (calls : Event.getaddrinfo name ∈ s'.shared.log.drop s.shared.log.length) :
    ∃ ctx q count, (s.loc .msg).pc = .opening ctx q (.resolve count) ∧
      Event.received ctx.clientId (.opn q) ∈ s.shared.log ∧
      (CheckedName q.host name ↔ 0 ∉ q.host) := by
  obtain ⟨l, n, move, rfl⟩ := next_move next
  obtain ⟨es, log, emits⟩ := move.log
  rw [log, List.drop_left] at calls
  obtain ⟨ctx, q, count, at_, rfl⟩ : ∃ ctx q count,
      (s.loc .msg).pc = .opening ctx q (.resolve count) ∧ name = cString q.host :=
    (emits _ calls).resolve_at
  obtain ⟨received, mediated⟩ : Event.received ctx.clientId (.opn q) ∈ s.shared.log ∧
      Mediated cfg ctx.clientId q count := by
    have from_ := msgFrom_of_reaches h
    rw [at_] at from_
    exact from_
  refine ⟨ctx, q, count, at_, received, ?_⟩
  constructor
  · intro checked
    exact (cString_eq_self_iff _).mp checked.whole
  · intro clean
    have free := mediated.hostFree
    rw [← Bool.not_eq_true, isHostBlocked_iff, not_or] at free
    rw [(cString_eq_self_iff _).mpr clean]
    exact ⟨rfl, free.1, free.2⟩

theorem plain_name_checked :
    ∃ s', (machine {}).next ((machine {}).run init openResolving) .msg (.resolved none) = some s' ∧
      ∃ ctx q count,
        (((machine {}).run init openResolving).loc .msg).pc = .opening ctx q (.resolve count) ∧
        Event.received ctx.clientId (.opn q) ∈ ((machine {}).run init openResolving).shared.log ∧
        (CheckedName q.host (ascii "h") ↔ 0 ∉ q.host) := by
  have h : Reaches {} ((machine {}).run init openResolving) :=
    (Reach.run (by decide : (machine {}).follows (fun _ _ _ => true) init openResolving)).any
  obtain ⟨s', next⟩ : ∃ s', (machine {}).next ((machine {}).run init openResolving) .msg
      (.resolved none) = some s' := ⟨_, rfl⟩
  refine ⟨s', next, checked_name_iff h next ?_⟩
  cases next
  decide

/-- An OPEN for the host `localhost\0x`, up to the resolver's answer. -/
def openWithNul : List (ThreadId × Act) :=
  (.msg, .deliver (ascii "A") ([1, 0, 0, 0, 1, 0, 11] ++ ascii "localhost" ++ [0, 120, 0, 80, 0, 0]))
    :: [.go, .go, .go, .resolved (some [0x7F000001])].map fun a => (.msg, a)

/-- The host `localhost\0x` passes the check, and `localhost` is resolved. -/
theorem cut_name_unchecked :
    Reaches {} ((machine {}).run init openWithNul) ∧
      Event.received (ascii "A") (.opn ⟨1, ascii "localhost" ++ [0, 120], 80, []⟩) ∈
        ((machine {}).run init openWithNul).shared.log ∧
      Event.getaddrinfo (ascii "localhost") ∈ ((machine {}).run init openWithNul).shared.log ∧
      ¬ CheckedName (ascii "localhost" ++ [0, 120]) (ascii "localhost") := by
  refine ⟨?_, by decide, by decide, fun checked => checked.notLocalhost rfl⟩
  exact (Reach.run (by decide : (machine {}).follows (fun _ _ _ => true) init openWithNul)).any

end TonTunnel.Egress
