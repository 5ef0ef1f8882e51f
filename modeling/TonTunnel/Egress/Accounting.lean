import TonTunnel.Egress.Registration
import TonTunnel.Lib.EntryCount

/-!
The per-client stream counts.

`streams_per_client_` is kept by three pieces of code: `handleOpen` increments it
when it stores a stream, `closeStream` decrements it when it erases one, `stop`
clears it. The counts are the numbers of entries as long as storing never
replaces an entry and no section is left half done (`counts_match_streams`).
That an increment does not wrap comes from the quota check: between the check
and the registration nobody but the message thread can raise a count
(`belowQuota_of_reaches`), which holds in every run. Replaced entries leave the
counts too high, never too low, so the quota also bounds the number of entries
(`streams_within_quota`), unless an entry is stored and its count is not.
-/

namespace TonTunnel.Egress

open Interleaving (Reach)

/-- The number of entries of `streams_` whose stream belongs to the client. -/
def liveStreams (n : Node) (c : Bytes) : Nat :=
  n.streams.entryCount fun e => (n.heap e.2).clientId == c

/-- The count of every client is its number of entries. -/
def Counted (n : Node) : Prop :=
  ∀ c, (n.count c).toNat = liveStreams n c

/-- `handleOpen` does not run out of memory between storing a stream and counting it. -/
def countsStored (s : System) : ThreadId → Act → Bool
  | .msg, .throwMid _ =>
      match (s.loc .msg).pc with
      | .opening _ _ (.register _) => false
      | _ => true
  | _, _ => true

/-- The steps that change the table and the counts together. -/
def countsEntries (s : System) (t : ThreadId) (a : Act) : Bool :=
  keepsEntries s t a && countsStored s t a

/-! ### How the sections change a count -/

theorem count_register (n : Node) (client key : Bytes) (r : Ref) (c : Bytes) :
    (n.register client key r).count c = if c = client then n.count c + 1 else n.count c := by
  by_cases h : c = client
  · subst h
    simp [Node.register, Node.count, Node.putStream, Node.emit]
  · simp [Node.register, Node.count, Node.putStream, Node.emit, AList.lookup_insert_ne h, h]

theorem count_dropCount (n : Node) (client c : Bytes) :
    (n.dropCount client).count c =
      if c = client ∧ 0 < n.count c then n.count c - 1 else n.count c := by
  by_cases h : c = client
  · subst h
    unfold Node.dropCount
    cases hlookup : n.streamsPerClient.lookup c with
    | none => simp [Node.count, hlookup]
    | some v =>
        by_cases hv : 0 < v
        · simp [Node.count, hlookup, hv]
        · simp [Node.count, hlookup, hv]
  · unfold Node.dropCount
    split
    · simp [h]
    · split
      · simp [Node.count, AList.lookup_insert_ne h, h]
      · simp [h]

theorem count_take (n : Node) (t : ThreadId) (call : CloseCall) (r : Ref) (c : Bytes) :
    (n.take t call r).count c =
      if c = call.clientId ∧ 0 < n.count c then n.count c - 1 else n.count c := by
  let key := keyFor call.clientId call.streamId
  exact count_dropCount (({ n with streams := n.streams.erase key }).noteClosed key)
    call.clientId c

/-! ### The quota holds until the registration -/

/-- The points of `handleOpen` between the quota check and the registration. -/
def OpenPc.pastQuota : OpenPc → Bool
  | .resolve _ | .connect _ _ _ | .socket _ _ _ | .connecting _ _ _ _ _ | .makeStream _ _
  | .register _ => true
  | _ => false

/-- A client whose OPEN passed the quota check is still below the quota. -/
def BelowQuota (cfg : Config) (pc : MsgPc) (n : Node) : Prop :=
  ∀ ctx q opc, pc = .opening ctx q opc → opc.pastQuota = true →
    (n.count ctx.clientId).toNat < cfg.maxStreams.toNat

/-- A decrement, made only where the count is positive. -/
theorem toNat_sub_one {v : UInt32} (h : 0 < v) : (v - 1).toNat = v.toNat - 1 := by
  have hpos : 0 < v.toNat := UInt32.lt_iff_toNat_lt.mp h
  exact UInt32.toNat_sub_of_le _ _ (UInt32.le_iff_toNat_le.mpr hpos)

/-- Threads other than the message thread never raise a count. -/
theorem count_le_of_other {cfg : Config} {t : ThreadId} {l l' : Loc t} {n n' : Node} {a : Act}
    (ht : t ≠ .msg) (m : Move cfg t n l a l' n') (c : Bytes) :
    (n'.count c).toNat ≤ (n.count c).toNat := by
  cases m.table with
  | still still => rw [still.count c]
  | register => exact absurd rfl ht
  | registerThrows => exact absurd rfl ht
  | take =>
      rw [count_take]
      split
      · rename_i hpos
        rw [toNat_sub_one hpos.2]
        exact Nat.sub_le _ _
      · exact Nat.le_refl _
  | lose => exact Nat.le_refl _
  | snapshot => exact Nat.zero_le _

/-- A step of `handleOpen` that ends between check and registration keeps the count. -/
theorem OpenMove.pastQuota {cfg : Config} {client : Bytes} {q : OpenMessage} {pc pc' : OpenPc}
    {n n' : Node} {a : Act} (m : OpenMove cfg client q n pc a (.more pc') n')
    (h : pc'.pastQuota = true) :
    n'.count client = n.count client ∧ (pc.pastQuota = true ∨ n.count client < cfg.maxStreams) := by
  cases m with
  | refuse | pass | quotaThrows | unresolved | exhausted | register | registerThrows | ack
  | startThread | throws => simp [OpenPc.pastQuota] at h
  | quotaLeft below => exact ⟨(Mild.touchCount n client).count client, .inr below⟩
  | disconnected =>
      refine ⟨?_, .inl rfl⟩
      exact ((Still.noteSelect n _ _ _).trans (.closeFd _ _)).count client
  | connected => exact ⟨(Mild.noteSelect n _ _ _).count client, .inl rfl⟩
  | resolved | skip | attempt | noSocket | socket | makeStream => exact ⟨rfl, .inl rfl⟩

/-- **Every run keeps the quota until the registration.** -/
theorem belowQuota_of_reaches {cfg : Config} {s : System} (h : Reaches cfg s) :
    BelowQuota cfg (s.loc .msg).pc s.shared := by
  refine h.msgPos (P := BelowQuota cfg) nofun (fun _ _ move hq => ?_)
    (fun _ _ hwait move hq => ?_) (fun {_ pc had} hcalls => ?_)
  · intro ctx q opc hpc hpast
    cases move with
    | opening move =>
        cases hpc
        obtain ⟨hcount, hopc | hbelow⟩ := move.pastQuota hpast
        · rw [hcount]
          exact hq _ _ _ rfl hopc
        · rw [hcount]
          exact UInt32.lt_iff_toNat_lt.mp hbelow
    | dispatchOpen =>
        cases hpc
        cases hpast
    | _ => cases hpc
  · intro ctx q opc hpc hpast
    rcases hwait with ht | hcalls
    · exact Nat.lt_of_le_of_lt (count_le_of_other ht move _) (hq _ _ _ hpc hpast)
    · subst hpc
      exact hcalls.elim
  · intro ctx q opc hpc
    obtain ⟨ctx', h | ⟨streamId, h⟩⟩ := MsgPc.resume_cases had hcalls
    · rw [h] at hpc
      cases hpc
    · rw [h] at hpc
      cases hpc

/-! ### Counts and entries agree -/

/-- **One guarded step keeps the counts.** -/
theorem Counted.step {cfg : Config} {s : System} {t : ThreadId} {a : Act} {l' : Loc t} {n' : Node}
    (hs : Owned s) (hquota : BelowQuota cfg (s.loc .msg).pc s.shared) (hc : Counted s.shared)
    (hok : countsEntries s t a = true)
    (hstep : step cfg t (s.loc t) s.shared a = some (l', n')) : Counted n' := by
  have m := step_move hstep
  have hn := hs.shared
  have hloc := hs.loc t
  have e := (m.own hn hloc).1
  have move := m.table
  generalize hl : s.loc t = l at move hloc
  cases move with
  | still still =>
      intro c
      rw [still.count, hc c, liveStreams, liveStreams, still.streams]
      refine AList.entryCount_congr fun k r hk => ?_
      rw [(e.ident (hn.bound hk)).2.1]
  | @register ctx q r =>
      obtain ⟨⟨named, -, -, -⟩, -⟩ := hloc.pos
      have fresh : s.shared.streams.lookup (keyFor ctx.clientId q.streamId) = none := by
        simpa [countsEntries, countsStored, keepsEntries, registersFresh, losesNothing, activeCall,
          hl] using hok
      have below := hquota ctx q (.register r) (by rw [hl]) rfl
      intro c
      have live : liveStreams (s.shared.register ctx.clientId (keyFor ctx.clientId q.streamId) r) c =
          liveStreams s.shared c + if ctx.clientId = c then 1 else 0 := by
        have := AList.entryCount_insert (b := r) (p := fun e => (s.shared.heap e.2).clientId == c)
          fresh
        simpa [liveStreams, Node.register, Node.putStream, Node.emit, named.2.1] using this
      rw [live, count_register, ← hc c]
      by_cases h : c = ctx.clientId
      · subst h
        have hmax := cfg.maxStreams.toNat_lt
        simp only [if_true]
        rw [UInt32.toNat_add, Nat.mod_eq_of_lt (by simpa using by omega)]
        rfl
      · simp [h, Ne.symm h]
  | registerThrows =>
      simp [countsEntries, countsStored, hl] at hok
  | @take _ _ _ _ call r calls found calls' =>
      obtain ⟨counts, htake⟩ := Node.take_eq s.shared t call r
      have hclient : (s.shared.heap r).clientId = call.clientId :=
        (keyFor_inj (hn.key found)).1.symm
      intro c
      have live : liveStreams s.shared c =
          liveStreams (s.shared.take t call r) c + if call.clientId = c then 1 else 0 := by
        have := AList.entryCount_erase (p := fun e => (s.shared.heap e.2).clientId == c) found
        simpa [liveStreams, htake, hclient] using this
      have hcount := hc c
      rw [count_take]
      by_cases h : c = call.clientId
      · subst h
        have hpos : 0 < s.shared.count call.clientId := by
          rw [UInt32.lt_iff_toNat_lt, hcount, live]
          simp
        rw [if_pos ⟨rfl, hpos⟩, toNat_sub_one hpos, hcount, live]
        simp
      · rw [if_neg fun hc => h hc.1, hcount, live]
        simp [Ne.symm h]
  | lose calls =>
      simp [countsEntries, keepsEntries, losesNothing, hl, calls] at hok
  | snapshot => exact fun c => rfl

/-- Whether the quota section of `handleOpen` can answer the client with an error. -/
def QuotaRefuses (cfg : Config) (n : Node) (c : Bytes) : Prop :=
  ∃ q ok, (openStep cfg c q .quota n (.sent ok)).isSome

theorem quotaRefuses_iff {cfg : Config} {n : Node} {c : Bytes} :
    QuotaRefuses cfg n c ↔ cfg.maxStreams ≤ n.count c := by
  constructor
  · rintro ⟨q, ok, h⟩
    by_contra hlt
    simp [openStep, hlt] at h
  · intro h
    exact ⟨⟨0, [], 0, []⟩, true, by simp [openStep, h]⟩

/-- **The counts are the numbers of streams.** In every run in which no OPEN is
registered over an entry of `streams_` and no section that updates both tables
runs out of memory half way, the count of every client is the number of its
entries; so a client without a live stream is not told that it has reached a
positive `max_streams`. -/
theorem counts_match_streams {cfg : Config} {s : System}
    (h : ReachesBy cfg (fun s t a => countsEntries s t a = true) s) (c : Bytes) :
    (s.shared.count c).toNat = liveStreams s.shared c ∧
      (liveStreams s.shared c = 0 → 0 < cfg.maxStreams → ¬ QuotaRefuses cfg s.shared c) := by
  have counted : Counted s.shared := by
    refine Reach.invariant (I := fun s => Counted s.shared) (fun _ => rfl) ?_ h
    intro s s' t a hr hc hok hnext
    obtain ⟨l, n, hstep, rfl⟩ := Interleaving.Machine.next_eq_some hnext
    exact hc.step (Reaches.owned hr.any) (belowQuota_of_reaches hr.any) hok hstep
  refine ⟨counted c, fun hzero hmax hrefuses => ?_⟩
  have hle := UInt32.le_iff_toNat_le.mp (quotaRefuses_iff.mp hrefuses)
  have hlt := UInt32.lt_iff_toNat_lt.mp hmax
  rw [counted c, hzero] at hle
  exact absurd (Nat.lt_of_lt_of_le hlt hle) (Nat.lt_irrefl _)

theorem counts_match_after_single_open :
    (((machine {}).run init singleOpen).shared.count (ascii "A")).toNat =
        liveStreams ((machine {}).run init singleOpen).shared (ascii "A") ∧
      (liveStreams ((machine {}).run init singleOpen).shared (ascii "A") = 0 →
        0 < (100 : UInt32) →
        ¬ QuotaRefuses {} ((machine {}).run init singleOpen).shared (ascii "A")) :=
  counts_match_streams (Reach.run (by decide)) (ascii "A")

/-- After a duplicate OPEN the client has one entry and is counted twice. -/
theorem duplicate_open_counts_twice :
    ∃ s, Reaches {} s ∧ (s.shared.count (ascii "A")).toNat = 2 ∧
      liveStreams s.shared (ascii "A") = 1 := by
  refine ⟨(machine {}).run init duplicateOpen, ?_, by decide, by decide⟩
  exact (Reach.run (by decide : (machine {}).follows (fun _ _ _ => true) init duplicateOpen)).any

/-! ### The quota -/

/-- The counts cover the entries and keep within the quota. -/
structure WithinQuota (cfg : Config) (n : Node) : Prop where
  covers (c : Bytes) : liveStreams n c ≤ (n.count c).toNat
  within (c : Bytes) : (n.count c).toNat ≤ cfg.maxStreams.toNat

/-- A count stayed, or went up or down by one, as a number. -/
def Steady (v v' : UInt32) : Prop :=
  v'.toNat = v.toNat ∨ v'.toNat = v.toNat + 1 ∨ v'.toNat + 1 = v.toNat

/-- An increment below the quota does not wrap. -/
theorem toNat_add_one {cfg : Config} {v : UInt32} (h : v.toNat < cfg.maxStreams.toNat) :
    (v + 1).toNat = v.toNat + 1 := by
  have hmax := cfg.maxStreams.toNat_lt
  rw [UInt32.toNat_add]
  exact Nat.mod_eq_of_lt (Nat.lt_of_le_of_lt h hmax)

/-- Taking a stream drops its client's count by one, unless the count is zero. -/
theorem toNat_count_take {n : Node} {t : ThreadId} {call : CloseCall} {r : Ref} {c : Bytes} :
    ((n.take t call r).count c).toNat =
      (n.count c).toNat - if call.clientId = c then 1 else 0 := by
  rw [count_take]
  by_cases h : c = call.clientId
  · subst h
    by_cases hpos : 0 < n.count call.clientId
    · rw [if_pos ⟨rfl, hpos⟩, toNat_sub_one hpos, if_pos rfl]
    · have hzero : (n.count call.clientId).toNat = 0 := by
        rw [UInt32.lt_iff_toNat_lt] at hpos
        exact Nat.eq_zero_of_not_pos hpos
      rw [if_neg fun h => hpos h.2, hzero, Nat.zero_sub]
  · rw [if_neg fun hc => h hc.1, if_neg (Ne.symm h), Nat.sub_zero]

/-- Registering a stream raises its client's count by one. -/
theorem toNat_count_register {cfg : Config} {n : Node} {client key : Bytes} {r : Ref} (c : Bytes)
    (below : (n.count client).toNat < cfg.maxStreams.toNat) :
    ((n.register client key r).count c).toNat =
      (n.count c).toNat + if client = c then 1 else 0 := by
  rw [count_register]
  by_cases h : c = client
  · subst h
    rw [if_pos rfl, if_pos rfl, toNat_add_one below]
  · rw [if_neg h, if_neg (Ne.symm h), Nat.add_zero]

/-- **One step keeps the counts within the quota**, and above the entries if it
stores no entry without counting it. -/
theorem WithinQuota.kept {cfg : Config} {s : System} {t : ThreadId} {a : Act} {l' : Loc t}
    {n' : Node} (hs : Owned s) (hquota : BelowQuota cfg (s.loc .msg).pc s.shared)
    (hw : WithinQuota cfg s.shared) (hok : countsStored s t a = true)
    (hstep : step cfg t (s.loc t) s.shared a = some (l', n')) : WithinQuota cfg n' := by
  have m := step_move hstep
  have hn := hs.shared
  have hloc := hs.loc t
  have e := (m.own hn hloc).1
  have move := m.table
  generalize hl : s.loc t = l at move hloc
  cases move with
  | still still =>
      constructor
      · intro c
        have live : liveStreams n' c = liveStreams s.shared c := by
          rw [liveStreams, liveStreams, still.streams]
          refine AList.entryCount_congr fun k r hk => ?_
          rw [(e.ident (hn.bound hk)).2.1]
        rw [live, still.count]
        exact hw.covers c
      · intro c
        rw [still.count]
        exact hw.within c
  | @register ctx q r =>
      obtain ⟨⟨named, -, -, -⟩, -⟩ := hloc.pos
      have below := hquota ctx q (.register r) (by rw [hl]) rfl
      constructor
      · intro c
        have live : liveStreams (s.shared.register ctx.clientId (keyFor ctx.clientId q.streamId) r)
            c ≤ liveStreams s.shared c + if ctx.clientId = c then 1 else 0 := by
          have := AList.entryCount_insert_le (m := s.shared.streams) (b := r)
            (a := keyFor ctx.clientId q.streamId)
            (p := fun e => (s.shared.heap e.2).clientId == c)
          simpa [liveStreams, Node.register, Node.putStream, Node.emit, named.2.1] using this
        rw [toNat_count_register c below]
        exact live.trans (Nat.add_le_add_right (hw.covers c) _)
      · intro c
        rw [toNat_count_register c below]
        split
        · rename_i hc
          subst hc
          exact below
        · exact hw.within c
  | registerThrows => simp [countsStored, hl] at hok
  | @take _ _ _ _ call r calls found calls' =>
      obtain ⟨counts, htake⟩ := Node.take_eq s.shared t call r
      have hclient : (s.shared.heap r).clientId = call.clientId :=
        (keyFor_inj (hn.key found)).1.symm
      constructor
      · intro c
        have live : liveStreams s.shared c =
            liveStreams (s.shared.take t call r) c + if call.clientId = c then 1 else 0 := by
          have := AList.entryCount_erase (p := fun e => (s.shared.heap e.2).clientId == c) found
          simpa [liveStreams, htake, hclient] using this
        rw [toNat_count_take]
        apply Nat.le_sub_of_add_le
        rw [← live]
        exact hw.covers c
      · intro c
        rw [toNat_count_take]
        exact (Nat.sub_le _ _).trans (hw.within c)
  | @lose _ _ _ _ call r calls found =>
      have hlive (c : Bytes) : liveStreams { s.shared with
          streams := s.shared.streams.erase (keyFor call.clientId call.streamId) } c ≤
          liveStreams s.shared c := by
        have := AList.entryCount_erase (p := fun e => (s.shared.heap e.2).clientId == c) found
        rw [liveStreams, liveStreams, this]
        exact Nat.le_add_right _ _
      exact ⟨fun c => (hlive c).trans (hw.covers c), hw.within⟩
  | snapshot =>
      constructor
      · intro c
        exact Nat.le_refl 0
      · intro c
        exact Nat.zero_le _

/-- No step of a thread other than `stop`, which clears the counts, wraps a count. -/
theorem steady_of_next {cfg : Config} {s s' : System} {t : ThreadId} {a : Act}
    (hquota : BelowQuota cfg (s.loc .msg).pc s.shared) (ht : t ≠ .main)
    (hnext : (machine cfg).next s t a = some s') (c : Bytes) :
    Steady (s.shared.count c) (s'.shared.count c) := by
  obtain ⟨l, n, m, rfl⟩ := next_move hnext
  have move := m.table
  generalize hl : s.loc t = l₀ at move
  cases move with
  | still still => exact .inl (by rw [still.count])
  | @register ctx q r =>
      have below := hquota ctx q (.register r) (by rw [hl]) rfl
      dsimp only
      rw [Steady, toNat_count_register c below]
      split
      · exact .inr (.inl rfl)
      · exact .inl rfl
  | registerThrows => exact .inl rfl
  | take =>
      dsimp only
      rw [Steady, toNat_count_take]
      split
      · rcases Nat.eq_zero_or_pos (s.shared.count c).toNat with h | h
        · exact .inl (by rw [h])
        · exact .inr (.inr (Nat.sub_add_cancel h))
      · exact .inl rfl
  | lose => exact .inl rfl
  | snapshot => exact absurd rfl ht

/-- The counts stay within the quota and above the entries. -/
theorem withinQuota_of_reaches {cfg : Config} {s : System}
    (h : ReachesBy cfg (fun s t a => countsStored s t a = true) s) : WithinQuota cfg s.shared := by
  refine Reach.invariant (I := fun s => WithinQuota cfg s.shared) ?_ ?_ h
  · constructor
    · intro c
      exact Nat.le_refl 0
    · intro c
      exact Nat.zero_le _
  · intro s s' t a hr hw hok hnext
    obtain ⟨l, n, hstep, rfl⟩ := Interleaving.Machine.next_eq_some hnext
    exact hw.kept (Reaches.owned hr.any) (belowQuota_of_reaches hr.any) hok hstep

/-- `stop` runs to its end while an OPEN of client `A` is at the registration, which
then fails to allocate the count. -/
def stopDuringOpen : List (ThreadId × Act) :=
  List.flatten [[(.msg, .deliver (ascii "A") openStream1)], (openSchedule 3).take 8,
    [(.main, .go), (.main, .go), (.idle, .go), (.main, .go), (.main, .order []), (.main, .go),
      (.msg, .throwMid none)]]

end TonTunnel.Egress
