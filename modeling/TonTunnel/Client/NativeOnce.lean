import TonTunnel.Client.NativeContext

/-!
The native layer is set up once.

The JNI layer has a branch that destroys the context of an earlier call. It is dead:
`initialize` comes there only while no context is published, and nobody takes one down.

* `one_client`: a thread in `ton_adnl_client_send` is in a client that is alive, no
  second client is alive beside it, it stays for ever, and each `initialize` that
  succeeds returns the same context.
* `configured`: `runtimeConfig`, whose token `openStream` sends, is the configuration that
  this client was made from, and a receiver is started for it once.
* `packets_in_order`: what the receiver takes are the packets that arrived, in order.
-/

namespace TonTunnel.NativeContext

open Interleaving

/-! ### What a thread in the monitor knows -/

/-- The first `k` of the six assignments of a set-up from `t` have happened. -/
structure Built (k : Nat) (t : TransportConfig) (c : Nat) (n : SetUp) : Prop where
  context : n.gContext = if 1 ≤ k then some c else none
  ready : n.gNativeReady = decide (2 ≤ k)
  ptr : n.nativeContextPtr = if 3 ≤ k then some c else none
  config : n.runtimeConfig = if 4 ≤ k then some t else none
  running : n.receiverRunning = decide (5 ≤ k)
  loops : n.receiverLoops = if 6 ≤ k then 1 else 0

/-- The context has the client, and no other client is alive. -/
structure Lives (c h : Nat) (cl : Client) (n : Objects) : Prop where
  handle : n.contexts c = some ⟨some h⟩
  client : n.clients h = some cl
  only (h' : Nat) : n.clients h' ≠ none → h' = h

/-- Nothing is set up. -/
structure Blank (n : Guarded) : Prop where
  built (t : TransportConfig) (c : Nat) : Built 0 t c n.toSetUp
  clients (h : Nat) : n.clients h = none

/-- `k` assignments of the set-up from `t` have happened, and its client is alive. -/
structure Up (k : Nat) (t : TransportConfig) (c : Nat) (n : Guarded) : Prop where
  built : Built k t c n.toSetUp
  lives : ∃ h, Lives c h t.client n.toObjects

/-- Between two threads in the monitor. -/
def Settled (n : Guarded) : Prop := Blank n ∨ ∃ t c, Up 6 t c n

/-- What `configureAdnlPeer` was given. -/
structure Pending (t : TransportConfig) (n : Peer) : Prop where
  address : n.gPendingAddress = t.egressAdnlAddress
  privateKey : n.gPendingPrivateKey = t.clientPrivateKey
  localHost : n.gPendingLocalAdvertiseHost = t.localUdpAdvertiseHost

/-- Nothing is set up, and the last error has a text. -/
def Failed (n : Process) : Prop := Blank n.toGuarded ∧ n.gLastError ≠ ""

/-- What holds at a line of `initialize` that a thread runs in the monitor. -/
def InitPc.Knows : InitPc → Process → Prop
  | .enter _, _ | .fast, _ | .lock _, _ => False
  | .check _, n => Settled n.toGuarded
  | .configure _, n => Blank n.toGuarded
  | .newContext t, n | .testOld t _, n | .testPending t _, n | .create t _, n =>
      Blank n.toGuarded ∧ Pending t n.toPeer
  -- nobody gets here
  | .destroyOld _ _ _, _ | .deleteOld _ _ _, _ | .forgetOld _ _, _ => False
  | .setCallback t c h, n =>
      Built 0 t c n.toSetUp ∧ Lives c h { t.client with hears := false } n.toObjects
  | .start t c h, n => Built 0 t c n.toSetUp ∧ Lives c h t.client n.toObjects
  | .destroy t c h, n =>
      Built 0 t c n.toSetUp ∧ Lives c h t.client n.toObjects ∧ n.gLastError ≠ ""
  | .failed _ _, n | .notReady _, n | .store _ none, n => Failed n
  | .publish t c, n => Up 0 t c n.toGuarded
  | .clearError t c, n | .ready t c, n => Up 1 t c n.toGuarded
  | .store t (some c), n => Up 2 t c n.toGuarded
  | .stored t, n => Failed n ∨ ∃ c, Up 3 t c n.toGuarded
  | .config t, n => ∃ c, Up 3 t c n.toGuarded
  | .startReceiver, n => ∃ t c, Up 4 t c n.toGuarded
  | .execute, n => ∃ t c, Up 5 t c n.toGuarded
  | .unlock, n => Failed n ∨ ∃ t c, Up 6 t c n.toGuarded

/-- What `initialize` has returned: the context, or a null pointer with an error text. -/
def Returned (p : Option Nat) (n : Process) : Prop :=
  match p with
  | some c => n.gContext = some c
  | none => n.gLastError ≠ "" ∨ n.gContext ≠ none

/-- What holds of a thread that uses the object. -/
def CallerPc.Knows (i : Nat) : CallerPc → Process → Prop
  | .init (.enter _), n | .init (.lock _), n => n.monitor ≠ some i
  | .init .fast, n => n.monitor ≠ some i ∧ n.nativeContextPtr ≠ none
  | .init pc, n => n.monitor = some i ∧ pc.Knows n
  | .returned p, n => n.monitor ≠ some i ∧ Returned p n
  | .useContext _, n => n.monitor ≠ some i ∧ n.gContext ≠ none
  | .inside h _, n => n.monitor ≠ some i ∧
      ∃ (c : Nat) (t : TransportConfig), n.gContext = some c ∧ Lives c h t.client n.toObjects
  | .idle, n | .sent _, n | .testReady _, n | .testContext _, n => n.monitor ≠ some i

def ReceiverPc.inHand : ReceiverPc → List Bytes
  | .hand packet => [packet]
  | .head | .testReady | .testContext | .pop | .ended => []

/-- What the receiver took is what arrived before the rest in the queue, and it has lost
none of it but to a failed allocation. It has `held` in its hand. -/
structure InOrder (held : List Bytes) (n : Packets) : Prop where
  nonempty : [] ∉ n.arrived
  order : ∃ taken, taken ++ n.gInboundQueue = n.arrived ∧
    List.Sublist (n.received ++ held) taken ∧
    (n.refused = false → n.received ++ held = taken)

def Sound (n : Process) : Prop := n.monitor = none → Settled n.toGuarded

def Knows : (t : ThreadId) → Loc t → Process → Prop
  | .caller i, pc, n => CallerPc.Knows i pc n
  | .receiver, pc, n => InOrder (ReceiverPc.inHand pc) n.toPackets
  | .adnl, _, _ => True

/-! ### What a step changes -/

section Steps

variable {n n' : Process} {i k c : Nat} {t : TransportConfig} {a : Act} {pc : InitPc}
  {out : InitOut}

/-- What every step keeps, whoever takes it. -/
structure Keeps (n n' : Process) : Prop where
  ptr : n.nativeContextPtr ≠ none → n'.nativeContextPtr = n.nativeContextPtr
  context : n.gContext ≠ none → n'.gContext = n.gContext
  lives {c h : Nat} {t : TransportConfig} : n.gContext = some c →
    Lives c h t.client n.toObjects → Lives c h t.client n'.toObjects
  told : n.gLastError ≠ "" ∨ n.gContext ≠ none → n'.gLastError ≠ "" ∨ n'.gContext ≠ none

theorem Keeps.refl (n : Process) : Keeps n n := ⟨fun _ => rfl, fun _ => rfl, fun _ h => h, id⟩

theorem Keeps.trans {mid : Process} (one : Keeps n mid) (two : Keeps mid n') : Keeps n n' where
  ptr set := by
    have same := one.ptr set
    rw [← same]
    exact two.ptr (same ▸ set)
  context up := by
    have same := one.context up
    rw [← same]
    exact two.context (same ▸ up)
  lives up lives := two.lives ((one.context (by rw [up]; exact nofun)).trans up) (one.lives up lives)
  told h := two.told (one.told h)

/-- A step of a thread that is not in the monitor, and does not enter it. -/
structure Aside (n n' : Process) : Prop where
  guarded : n'.toGuarded = n.toGuarded
  error : n'.gLastError = n.gLastError ∨ n'.gLastError ≠ ""

theorem Aside.keeps (aside : Aside n n') : Keeps n n' := by
  have ptr : n'.nativeContextPtr = n.nativeContextPtr := by rw [aside.guarded]
  have context : n'.gContext = n.gContext := by rw [aside.guarded]
  refine ⟨fun _ => ptr, fun _ => context, ?_, ?_⟩
  · intro c h t _ lives
    rw [aside.guarded]
    exact lives
  · rintro (told | up)
    · rcases aside.error with same | text
      · exact .inl (same ▸ told)
      · exact .inl text
    · exact .inr (context ▸ up)

/-- Before the first assignment there is nothing to keep but the text of an error. -/
theorem Built.keeps (built : Built 0 t c n.toSetUp)
    (told : n.gLastError ≠ "" → n'.gLastError ≠ "" ∨ n'.gContext ≠ none) : Keeps n n' := by
  have ptr : n.nativeContextPtr = none := built.ptr
  have context : n.gContext = none := built.context
  refine ⟨fun h => absurd ptr h, fun h => absurd context h, ?_, ?_⟩
  · intro c h t up
    rw [context] at up
    cases up
  · rintro (text | up)
    · exact told text
    · exact absurd context up

/-- Behind the first assignment no object is made or deleted. -/
theorem Up.keeps (up : Up (k + 1) t c n.toGuarded) (objects : n'.toObjects = n.toObjects)
    (context : n'.gContext = n.gContext)
    (ptr : n.nativeContextPtr ≠ none → n'.nativeContextPtr = n.nativeContextPtr) : Keeps n n' := by
  have some_ : n.gContext = some c := up.built.context
  refine ⟨ptr, fun _ => context, ?_, ?_⟩
  · intro c h t _ lives
    rw [objects]
    exact lives
  · intro _
    rw [context, some_]
    exact .inr nofun

/-- Before the first assignment nothing is known of its configuration. -/
theorem Built.zero {t' : TransportConfig} {c' : Nat} (built : Built 0 t c n.toSetUp) :
    Built 0 t' c' n.toSetUp :=
  ⟨built.context, built.ready, built.ptr, built.config, built.running, built.loops⟩

theorem InitPc.Knows.caller (mon : n.monitor = some i) (knows : pc.Knows n) :
    CallerPc.Knows i (.init pc) n := by
  cases pc with
  | enter | fast | lock => exact knows.elim
  | _ => exact ⟨mon, knows⟩

/-- What the next line knows, or whoever is in the monitor next. -/
def InitOut.Knows (i : Nat) (n : Process) : InitOut → Prop
  | .next pc => n.monitor = some i ∧ pc.Knows n
  | .returns p => n.monitor = none ∧ Settled n.toGuarded ∧ Returned p n

/-- **A step in the monitor.** -/
theorem initStep_knows (mon : n.monitor = some i) (knows : pc.Knows n)
    (h : initStep i pc n a = some (out, n')) :
    Keeps n n' ∧ n'.toPackets = n.toPackets ∧ out.Knows i n' := by
  cases pc with
  | enter | fast | lock | destroyOld | deleteOld | forgetOld => exact knows.elim
  | check t =>
      simp only [initStep] at h
      split at h
      case isTrue null =>
          cases h
          refine ⟨.refl n, rfl, mon, ?_⟩
          rcases knows with blank | ⟨t, c, up⟩
          · exact blank
          · exact absurd (null.symm.trans up.built.ptr) nofun
      case isFalse set =>
          cases h
          refine ⟨.refl n, rfl, mon, ?_⟩
          rcases knows with blank | up
          · exact absurd (blank.built t 0).ptr set
          · exact .inr up
  | configure t =>
      cases h
      exact ⟨(knows.built t 0).keeps .inl, rfl, mon, ⟨knows.built, knows.clients⟩, rfl, rfl, rfl⟩
  | newContext t =>
      cases h
      exact ⟨(knows.1.built t 0).keeps .inl, rfl, mon, ⟨knows.1.built, knows.1.clients⟩, knows.2⟩
  | testOld t c =>
      have null : n.gContext = none := (knows.1.built t c).context
      simp only [initStep, null] at h
      cases h
      exact ⟨.refl n, rfl, mon, knows⟩
  | testPending t c =>
      simp only [initStep] at h
      split at h
      · cases h
        have text : (n.setLastError incomplete).gLastError ≠ "" := by
          rw [Process.setLastError_text]
          decide
        exact ⟨(knows.1.built t c).keeps fun _ => .inl text, rfl, mon,
          ⟨knows.1.built, knows.1.clients⟩, text⟩
      · cases h
        exact ⟨.refl n, rfl, mon, knows⟩
  | create t c =>
      have text : (n.setLastError createFailed).gLastError ≠ "" := by
        rw [Process.setLastError_text]
        decide
      obtain ⟨blank, pending⟩ := knows
      have made : (n.createClient c).toObjects.clients n.fresh =
          some { t.client with hears := false } := by
        simp [Process.createClient, TransportConfig.client, pending.address, pending.privateKey,
          pending.localHost]
      have lives : Lives c n.fresh { t.client with hears := false } (n.createClient c).toObjects := by
        refine ⟨Function.update_self .., made, ?_⟩
        intro h' alive
        by_contra other
        exact alive ((Function.update_of_ne other ..).trans (blank.clients h'))
      cases a with
      | fails =>
          cases h
          exact ⟨(blank.built t c).keeps fun _ => .inl text, rfl, mon,
            ⟨blank.built, blank.clients⟩, text⟩
      | _ =>
          cases h
          exact ⟨(blank.built t c).keeps .inl, rfl, mon, blank.built t c, lives⟩
  | setCallback t c h₀ =>
      cases h
      obtain ⟨built, lives⟩ := knows
      refine ⟨built.keeps .inl, rfl, mon, built, lives.handle, ?_, ?_⟩
      · have hears := lives.client
        simp [Process.setOnMessage, hears, TransportConfig.client]
      · intro h' alive
        by_contra other
        refine other (lives.only h' fun null => alive ?_)
        exact (Function.update_of_ne other ..).trans null
  | start t c h₀ =>
      have text : (n.setLastError startFailed).gLastError ≠ "" := by
        rw [Process.setLastError_text]
        decide
      obtain ⟨built, lives⟩ := knows
      cases a with
      | fails =>
          cases h
          exact ⟨built.keeps fun _ => .inl text, rfl, mon, built, lives, text⟩
      | _ =>
          cases h
          exact ⟨.refl n, rfl, mon, built, h₀, lives⟩
  | destroy t c h₀ =>
      cases h
      obtain ⟨built, lives, text⟩ := knows
      refine ⟨built.keeps .inl, rfl, mon, ⟨fun _ _ => built.zero, ?_⟩, text⟩
      intro h'
      by_contra alive
      by_cases same : h' = h₀
      · subst same
        exact alive (Function.update_self ..)
      · refine same (lives.only h' fun null => alive ?_)
        exact (Function.update_of_ne same ..).trans null
  | failed t c =>
      cases h
      exact ⟨(knows.1.built t c).keeps .inl, rfl, mon, ⟨knows.1.built, knows.1.clients⟩, knows.2⟩
  | notReady t =>
      cases h
      obtain ⟨blank, text⟩ := knows
      refine ⟨(blank.built t 0).keeps .inl, rfl, mon, ⟨fun t c => ?_, blank.clients⟩, text⟩
      have built := blank.built t c
      exact ⟨built.context, rfl, built.ptr, built.config, built.running, built.loops⟩
  | publish t c =>
      cases h
      obtain ⟨built, lives⟩ := knows
      exact ⟨built.keeps .inl, rfl, mon,
        ⟨rfl, built.ready, built.ptr, built.config, built.running, built.loops⟩, lives⟩
  | clearError t c =>
      cases h
      exact ⟨knows.keeps rfl rfl fun _ => rfl, rfl, mon, ⟨knows.built, knows.lives⟩⟩
  | ready t c =>
      cases h
      have built := knows.built
      exact ⟨knows.keeps rfl rfl fun _ => rfl, rfl, mon,
        ⟨built.context, rfl, built.ptr, built.config, built.running, built.loops⟩, knows.lives⟩
  | store t p =>
      cases h
      cases p with
      | none =>
          obtain ⟨blank, text⟩ := knows
          refine ⟨(blank.built t 0).keeps .inl, rfl, mon, .inl ⟨⟨fun t c => ?_, blank.clients⟩, text⟩⟩
          have built := blank.built t c
          exact ⟨built.context, built.ready, rfl, built.config, built.running, built.loops⟩
      | some c =>
          have built := knows.built
          have null : n.nativeContextPtr = none := built.ptr
          exact ⟨knows.keeps rfl rfl fun set => absurd null set, rfl, mon, .inr ⟨c,
            ⟨built.context, built.ready, rfl, built.config, built.running, built.loops⟩,
            knows.lives⟩⟩
  | stored t =>
      simp only [initStep] at h
      split at h
      case isTrue set =>
          cases h
          refine ⟨.refl n, rfl, mon, ?_⟩
          rcases knows with ⟨blank, -⟩ | up
          · exact absurd (blank.built t 0).ptr set
          · exact up
      case isFalse null =>
          cases h
          refine ⟨.refl n, rfl, mon, ?_⟩
          rcases knows with failed | ⟨c, up⟩
          · exact .inl failed
          · exact absurd ((not_not.mp null).symm.trans up.built.ptr) nofun
  | config t =>
      cases h
      obtain ⟨c, up⟩ := knows
      have built := up.built
      exact ⟨up.keeps rfl rfl fun _ => rfl, rfl, mon, t, c,
        ⟨built.context, built.ready, built.ptr, rfl, built.running, built.loops⟩, up.lives⟩
  | startReceiver =>
      obtain ⟨t, c, up⟩ := knows
      have built := up.built
      simp only [initStep] at h
      split at h
      case isTrue running => exact absurd (running.symm.trans built.running) nofun
      case isFalse =>
          cases h
          exact ⟨up.keeps rfl rfl fun _ => rfl, rfl, mon, t, c,
            ⟨built.context, built.ready, built.ptr, built.config, rfl, built.loops⟩, up.lives⟩
  | execute =>
      cases h
      obtain ⟨t, c, up⟩ := knows
      have built := up.built
      exact ⟨up.keeps rfl rfl fun _ => rfl, rfl, mon, .inr ⟨t, c,
        ⟨built.context, built.ready, built.ptr, built.config, built.running,
          congrArg (· + 1) built.loops⟩, up.lives⟩⟩
  | unlock =>
      cases h
      rcases knows with ⟨blank, text⟩ | ⟨t, c, up⟩
      · have null : n.nativeContextPtr = none := (blank.built ⟨"", "", "", ""⟩ 0).ptr
        refine ⟨(blank.built ⟨"", "", "", ""⟩ 0).keeps .inl, rfl, rfl, .inl blank, ?_⟩
        rw [null]
        exact .inl text
      · have ptr : n.nativeContextPtr = some c := up.built.ptr
        refine ⟨up.keeps rfl rfl fun _ => rfl, rfl, rfl, .inr ⟨t, c, up⟩, ?_⟩
        rw [ptr]
        exact up.built.context

/-! ### The other threads -/

theorem Failed.aside (aside : Aside n n') (failed : Failed n) : Failed n' := by
  obtain ⟨blank, text⟩ := failed
  refine ⟨?_, ?_⟩
  · rw [aside.guarded]
    exact blank
  · rcases aside.error with same | set
    · rw [same]
      exact text
    · exact set

/-- What a thread in the monitor knows, the others leave alone. -/
theorem InitPc.Knows.aside (aside : Aside n n') (knows : pc.Knows n) : pc.Knows n' := by
  cases pc with
  | failed | notReady => exact Failed.aside aside knows
  | store t p =>
      cases p with
      | none => exact Failed.aside aside knows
      | some c =>
          rw [InitPc.Knows, aside.guarded]
          exact knows
  | stored | unlock =>
      rw [InitPc.Knows, aside.guarded]
      exact knows.imp_left (Failed.aside aside)
  | destroy =>
      obtain ⟨built, lives, text⟩ := knows
      rw [InitPc.Knows, aside.guarded]
      refine ⟨built, lives, ?_⟩
      rcases aside.error with same | set
      · rw [same]
        exact text
      · exact set
  | enter | fast | lock | destroyOld | deleteOld | forgetOld => exact knows.elim
  | _ =>
      rw [InitPc.Knows, aside.guarded]
      exact knows

theorem Returned.keeps {p : Option Nat} (keeps : Keeps n n') (h : Returned p n) :
    Returned p n' := by
  cases p with
  | none => exact keeps.told h
  | some c =>
      have up : n.gContext = some c := h
      exact (keeps.context (by rw [up]; exact nofun)).trans up

/-- What the step of another thread leaves to a caller. -/
theorem CallerPc.Knows.other {pc : CallerPc} (keeps : Keeps n n')
    (inside : n.monitor = some i → Aside n n' ∧ n'.monitor = some i)
    (outside : n.monitor ≠ some i → n'.monitor ≠ some i) (knows : CallerPc.Knows i pc n) :
    CallerPc.Knows i pc n' := by
  cases pc with
  | idle | sent | testReady | testContext => exact outside knows
  | returned p => exact ⟨outside knows.1, Returned.keeps keeps knows.2⟩
  | useContext packet =>
      refine ⟨outside knows.1, ?_⟩
      rw [keeps.context knows.2]
      exact knows.2
  | inside h packet =>
      obtain ⟨out, c, t, up, lives⟩ := knows
      refine ⟨outside out, c, t, ?_, keeps.lives up lives⟩
      exact (keeps.context (by rw [up]; exact nofun)).trans up
  | init pc =>
      cases pc with
      | enter | lock => exact outside knows
      | fast =>
          refine ⟨outside knows.1, ?_⟩
          rw [keeps.ptr knows.2]
          exact knows.2
      | _ =>
          obtain ⟨mon, knows⟩ := knows
          obtain ⟨aside, mon⟩ := inside mon
          exact ⟨mon, InitPc.Knows.aside aside knows⟩

/-- How far the set-up is that the members show. -/
def Stands (n : Guarded) : Prop :=
  (∀ h h', n.clients h ≠ none → n.clients h' ≠ none → h = h') ∧
    ((∃ t c, Built 0 t c n.toSetUp) ∨ ∃ k t c, Up (k + 1) t c n ∧ k ≤ 5)

theorem Lives.unique {h h₁ h₂ : Nat} {cl : Client} {n : Objects} (lives : Lives c h cl n)
    (one : n.clients h₁ ≠ none) (two : n.clients h₂ ≠ none) : h₁ = h₂ :=
  (lives.only h₁ one).trans (lives.only h₂ two).symm

theorem Blank.stands {n : Guarded} (blank : Blank n) : Stands n :=
  ⟨fun h _ alive => absurd (blank.clients h) alive, .inl ⟨⟨"", "", "", ""⟩, 0, blank.built _ _⟩⟩

theorem Up.stands {n : Guarded} (up : Up (k + 1) t c n) (le : k ≤ 5) : Stands n := by
  refine ⟨?_, .inr ⟨k, t, c, up, le⟩⟩
  obtain ⟨h, lives⟩ := up.lives
  exact fun _ _ => lives.unique

theorem Settled.stands {n : Guarded} (settled : Settled n) : Stands n := by
  rcases settled with blank | ⟨t, c, up⟩
  · exact blank.stands
  · exact up.stands (le_refl 5)

theorem InitPc.Knows.stands (knows : pc.Knows n) : Stands n.toGuarded := by
  cases pc with
  | enter | fast | lock | destroyOld | deleteOld | forgetOld => exact knows.elim
  | check => exact Settled.stands knows
  | configure => exact Blank.stands knows
  | newContext | testOld | testPending | create | failed | notReady => exact Blank.stands knows.1
  | setCallback t c | start t c => exact ⟨fun _ _ => knows.2.unique, .inl ⟨t, c, knows.1⟩⟩
  | destroy t c => exact ⟨fun _ _ => knows.2.1.unique, .inl ⟨t, c, knows.1⟩⟩
  | publish t c =>
      obtain ⟨built, h, lives⟩ := knows
      exact ⟨fun _ _ => lives.unique, .inl ⟨t, c, built⟩⟩
  | clearError | ready => exact Up.stands knows (by decide)
  | store t p =>
      cases p with
      | none => exact Blank.stands knows.1
      | some c => exact Up.stands knows (by decide)
  | stored =>
      rcases knows with failed | ⟨c, up⟩
      · exact failed.1.stands
      · exact up.stands (by decide)
  | config =>
      obtain ⟨c, up⟩ := knows
      exact up.stands (by decide)
  | startReceiver | execute =>
      obtain ⟨t, c, up⟩ := knows
      exact up.stands (by decide)
  | unlock =>
      rcases knows with failed | ⟨t, c, up⟩
      · exact failed.1.stands
      · exact up.stands (by decide)

/-- The published context has the client that is alive. -/
theorem Stands.lives {n : Guarded} (stands : Stands n) (up : n.gContext = some c) :
    ∃ h t, Lives c h (TransportConfig.client t) n.toObjects := by
  obtain ⟨-, ⟨t', c', built⟩ | ⟨k, t', c', is, -⟩⟩ := stands
  · exact absurd (up.symm.trans built.context) nofun
  · obtain ⟨h, lives⟩ := is.lives
    cases up.symm.trans is.built.context
    exact ⟨h, t', lives⟩

/-- What the step of a caller does to the rest. -/
structure Effect (i : Nat) (n n' : Process) : Prop where
  keeps : Keeps n n'
  packets : n'.toPackets = n.toPackets
  aside : n.monitor ≠ some i → Aside n n'
  monitor : n'.monitor = n.monitor ∨ n.monitor = none ∧ n'.monitor = some i ∨
    n.monitor = some i ∧ n'.monitor = none

theorem Effect.refl (i : Nat) (n : Process) : Effect i n n :=
  ⟨.refl n, rfl, fun _ => ⟨rfl, .inl rfl⟩, .inl rfl⟩

theorem Effect.setLastError {message : String} (text : message ≠ "") :
    Effect i n (n.setLastError message) :=
  have aside : Aside n (n.setLastError message) := ⟨rfl, .inr text⟩
  ⟨aside.keeps, rfl, fun _ => aside, .inl rfl⟩

theorem callStep_knows {pc : CallerPc} (out : n.monitor ≠ some i)
    (h : callStep n a = some (pc, n')) : n' = n ∧ CallerPc.Knows i pc n := by
  cases a with
  | go | fails | arrives => cases h
  | callInitialize t =>
      cases h
      exact ⟨rfl, out⟩
  | send packet =>
      cases h
      split
      · exact ⟨rfl, out⟩
      · exact ⟨rfl, out⟩

theorem handle_eq {h : Nat} {cl : Client} (up : n.gContext = some c)
    (lives : Lives c h cl n.toObjects) : n.handle = some (some h) := by
  rw [Process.handle, up, Option.bind_some, lives.handle]
  rfl

/-- The pointer that `initialize` tests is that of the published context. -/
theorem Stands.context {n : Guarded} (stands : Stands n) (set : n.nativeContextPtr = some c) :
    n.gContext = some c := by
  obtain ⟨-, ⟨t', c', built⟩ | ⟨k, t', c', ⟨built, -⟩, -⟩⟩ := stands
  · exact absurd (set.symm.trans built.ptr) nofun
  · have ptr := set.symm.trans built.ptr
    split at ptr
    · cases ptr
      exact built.context
    · cases ptr

theorem CallerPc.Knows.inside (mon : n.monitor = some i) (knows : CallerPc.Knows i (.init pc) n) :
    pc.Knows n := by
  cases pc with
  | enter | lock => exact absurd mon knows
  | fast => exact absurd mon knows.1
  | _ => exact knows.2

/-- Before the monitor `initialize` changes nothing, but for taking it. -/
theorem initStep_outside (sound : Sound n) (stands : Stands n.toGuarded)
    (knows : CallerPc.Knows i (.init pc) n) (outside : n.monitor ≠ some i)
    (h : initStep i pc n a = some (out, n')) : CallerPc.Knows i out.pc n' ∧
      (n' = n ∨ n.monitor = none ∧ n' = { n with monitor := some i }) := by
  cases pc with
  | enter t =>
      simp only [initStep] at h
      split at h
      case isTrue set =>
          cases h
          exact ⟨⟨outside, set⟩, .inl rfl⟩
      case isFalse =>
          cases h
          exact ⟨outside, .inl rfl⟩
  | fast =>
      cases h
      refine ⟨⟨outside, ?_⟩, .inl rfl⟩
      obtain ⟨c, set⟩ := Option.ne_none_iff_exists'.mp knows.2
      rw [set]
      exact stands.context set
  | lock t =>
      simp only [initStep] at h
      split at h
      case isTrue free =>
          cases h
          exact ⟨⟨rfl, sound free⟩, .inr ⟨free, rfl⟩⟩
      case isFalse => cases h
  | _ => exact absurd knows.1 outside

theorem callerStep_knows {pc pc' : CallerPc} (sound : Sound n) (stands : Stands n.toGuarded)
    (knows : CallerPc.Knows i pc n) (h : callerStep i pc n a = some (pc', n')) :
    Sound n' ∧ CallerPc.Knows i pc' n' ∧ Effect i n n' := by
  cases pc with
  | idle | sent =>
      obtain ⟨rfl, next⟩ := callStep_knows knows h
      exact ⟨sound, next, .refl i _⟩
  | returned =>
      obtain ⟨rfl, next⟩ := callStep_knows knows.1 h
      exact ⟨sound, next, .refl i _⟩
  | init pc =>
      obtain ⟨⟨out, n'⟩, step, same⟩ := Option.map_eq_some_iff.mp h
      cases same
      by_cases mon : n.monitor = some i
      · obtain ⟨keeps, packets, next⟩ := initStep_knows mon (knows.inside mon) step
        have effect (monitor : n'.monitor = some i ∨ n'.monitor = none) : Effect i n n' :=
          ⟨keeps, packets, absurd mon, by rcases monitor with h | h <;> simp [h, mon]⟩
        cases out with
        | next pc' =>
            obtain ⟨mon', knows'⟩ := next
            refine ⟨fun free => ?_, knows'.caller mon', effect (.inl mon')⟩
            rw [mon'] at free
            cases free
        | returns p =>
            obtain ⟨free, settled, returned⟩ := next
            refine ⟨fun _ => settled, ⟨?_, returned⟩, effect (.inr free)⟩
            rw [free]
            exact nofun
      · obtain ⟨knows', rfl | ⟨free, rfl⟩⟩ := initStep_outside sound stands knows mon step
        · exact ⟨sound, knows', .refl i _⟩
        · have aside : Aside n { n with monitor := some i } := ⟨rfl, .inl rfl⟩
          exact ⟨nofun, knows', aside.keeps, rfl, fun _ => aside, .inr (.inl ⟨free, rfl⟩)⟩
  | testReady packet =>
      simp only [callerStep] at h
      split at h
      · cases h
        exact ⟨sound, knows, .refl i _⟩
      · cases h
        exact ⟨sound, knows, .setLastError (by decide)⟩
  | testContext packet =>
      simp only [callerStep] at h
      split at h
      case isTrue =>
          cases h
          exact ⟨sound, knows, .setLastError (by decide)⟩
      case isFalse up =>
          cases h
          exact ⟨sound, ⟨knows, up⟩, .refl i _⟩
  | useContext packet =>
      obtain ⟨c, up⟩ := Option.ne_none_iff_exists'.mp knows.2
      obtain ⟨h₀, t, lives⟩ := stands.lives up
      simp only [callerStep, handle_eq up lives] at h
      cases h
      exact ⟨sound, ⟨knows.1, c, t, up, lives⟩, .refl i _⟩
  | inside h₀ packet =>
      cases a with
      | _ =>
          cases h
          exact ⟨sound, knows.1, .refl i _⟩

theorem receiverStep_aside {pc pc' : ReceiverPc} (h : receiverStep pc n a = some (pc', n')) :
    Aside n n' ∧ n'.monitor = n.monitor := by
  cases pc with
  | head =>
      simp only [receiverStep] at h
      split at h
      · cases h
      · split at h
        · cases h
          exact ⟨⟨rfl, .inl rfl⟩, rfl⟩
        · cases h
          exact ⟨⟨rfl, .inl rfl⟩, rfl⟩
  | testReady =>
      simp only [receiverStep] at h
      split at h
      · cases h
        exact ⟨⟨rfl, .inl rfl⟩, rfl⟩
      · cases h
        exact ⟨⟨rfl, .inl rfl⟩, rfl⟩
  | testContext =>
      have text : contextEmpty ≠ "" := by decide
      simp only [receiverStep] at h
      split at h
      · cases h
        exact ⟨⟨rfl, .inr text⟩, rfl⟩
      · obtain ⟨handle, -, same⟩ := Option.map_eq_some_iff.mp h
        cases handle with
        | none =>
            cases same
            exact ⟨⟨rfl, .inr text⟩, rfl⟩
        | some h =>
            cases same
            exact ⟨⟨rfl, .inl rfl⟩, rfl⟩
  | pop =>
      simp only [receiverStep] at h
      split at h
      · cases h
        exact ⟨⟨rfl, .inl rfl⟩, rfl⟩
      · cases h
        exact ⟨⟨rfl, .inl rfl⟩, rfl⟩
  | hand packet =>
      have text : allocationFailed ≠ "" := by decide
      cases a with
      | fails =>
          cases h
          exact ⟨⟨rfl, .inr text⟩, rfl⟩
      | _ =>
          cases h
          exact ⟨⟨rfl, .inl rfl⟩, rfl⟩
  | ended => cases h

theorem receiverStep_inOrder {pc pc' : ReceiverPc} (order : InOrder pc.inHand n.toPackets)
    (h : receiverStep pc n a = some (pc', n')) : InOrder pc'.inHand n'.toPackets := by
  cases pc with
  | head =>
      simp only [receiverStep] at h
      split at h
      · cases h
      · split at h
        · cases h
          exact order
        · cases h
          exact order
  | testReady =>
      simp only [receiverStep] at h
      split at h
      · cases h
        exact order
      · cases h
        exact order
  | testContext =>
      simp only [receiverStep] at h
      split at h
      · cases h
        exact order
      · obtain ⟨handle, -, same⟩ := Option.map_eq_some_iff.mp h
        cases handle with
        | none =>
            cases same
            exact order
        | some h =>
            cases same
            exact order
  | pop =>
      obtain ⟨nonempty, taken, all, within, whole⟩ := order
      rw [ReceiverPc.inHand, List.append_nil] at within whole
      simp only [receiverStep] at h
      split at h
      case h_1 =>
          cases h
          refine ⟨nonempty, taken, all, ?_, ?_⟩
          · rw [ReceiverPc.inHand, List.append_nil]
            exact within
          · rw [ReceiverPc.inHand, List.append_nil]
            exact whole
      case h_2 packet rest queue =>
          have there : packet ∈ n.arrived := by
            rw [← all, queue]
            exact List.mem_append_right _ List.mem_cons_self
          have some_ : packet ≠ [] := fun empty => nonempty (empty ▸ there)
          cases h
          rw [if_neg some_]
          refine ⟨nonempty, taken ++ [packet], ?_, within.append (.refl _), fun kept => ?_⟩
          · rw [← all, queue, List.append_assoc, List.singleton_append]
          · exact congrArg (· ++ [packet]) (whole kept)
  | hand packet =>
      obtain ⟨nonempty, taken, all, within, whole⟩ := order
      cases a with
      | fails =>
          cases h
          refine ⟨nonempty, taken, all, ?_, nofun⟩
          rw [ReceiverPc.inHand, List.append_nil]
          exact (List.sublist_append_left _ _).trans within
      | _ =>
          cases h
          refine ⟨nonempty, taken, all, ?_, fun kept => ?_⟩
          · rw [ReceiverPc.inHand, List.append_nil]
            exact within
          · rw [ReceiverPc.inHand, List.append_nil]
            exact whole kept
  | ended => cases h

theorem adnlStep_some {n' : Process} (h : adnlStep n a = some n') :
    n' = n ∨ ∃ data, data ≠ [] ∧ n' =
      { n with gInboundQueue := n.gInboundQueue ++ [data], arrived := n.arrived ++ [data] } := by
  cases a with
  | arrives client data =>
      simp only [adnlStep] at h
      split at h
      · split at h
        · cases h
          exact .inl rfl
        · cases h
          exact .inr ⟨data, ‹_›, rfl⟩
      · cases h
  | _ => cases h

theorem InOrder.arrive {held : List Bytes} {data : Bytes} (some_ : data ≠ [])
    (order : InOrder held n.toPackets) : InOrder held { n.toPackets with
      gInboundQueue := n.gInboundQueue ++ [data], arrived := n.arrived ++ [data] } := by
  obtain ⟨nonempty, taken, all, within, whole⟩ := order
  refine ⟨?_, taken, ?_, within, whole⟩
  · rw [List.mem_append, List.mem_singleton]
    rintro (there | empty)
    · exact nonempty there
    · exact some_ empty.symm
  · rw [← List.append_assoc, all]

end Steps

/-! ### Every run -/

theorem Blank.initial : Blank initial.shared.toGuarded :=
  ⟨fun _ _ => ⟨rfl, rfl, rfl, rfl, rfl, rfl⟩, fun _ => rfl⟩

variable {s s' : State}

theorem CallerPc.Knows.stands {n : Process} {i : Nat} {pc : CallerPc} (mon : n.monitor = some i)
    (knows : CallerPc.Knows i pc n) : Stands n.toGuarded := by
  cases pc with
  | idle | sent | testReady | testContext => exact absurd mon knows
  | returned | useContext | inside => exact absurd mon knows.1
  | init pc => exact (knows.inside mon).stands

theorem stands_of_holds (holds : Holds Sound Knows s) : Stands s.shared.toGuarded := by
  cases mon : s.shared.monitor with
  | none => exact (holds.shared mon).stands
  | some i => exact CallerPc.Knows.stands mon (holds.loc (.caller i))

/-- What a step of any thread does. -/
structure StepKnows (t : ThreadId) (l : Loc t) (n n' : Process) : Prop where
  sound : Sound n'
  own : Knows t l n'
  keeps : Keeps n n'
  other (t' : ThreadId) (l' : Loc t') : t' ≠ t → Knows t' l' n → Knows t' l' n'

theorem Aside.stepKnows {t : ThreadId} {l : Loc t} {n n' : Process} (sound : Sound n)
    (aside : Aside n n') (mon : n'.monitor = n.monitor) (own : Knows t l n')
    (order : ∀ held, t ≠ .receiver → InOrder held n.toPackets → InOrder held n'.toPackets) :
    StepKnows t l n n' where
  sound free := by
    rw [aside.guarded]
    exact sound (mon ▸ free)
  own := own
  keeps := aside.keeps
  other t' l' differ knows := by
    cases t' with
    | caller j =>
        exact CallerPc.Knows.other aside.keeps (fun at_ => ⟨aside, mon.trans at_⟩)
          (fun out => by rwa [mon]) knows
    | receiver => exact order _ (Ne.symm differ) knows
    | adnl => trivial

theorem Effect.stepKnows {i : Nat} {pc : CallerPc} {n n' : Process} (sound : Sound n')
    (own : CallerPc.Knows i pc n') (effect : Effect i n n') :
    StepKnows (.caller i) pc n n' where
  sound := sound
  own := own
  keeps := effect.keeps
  other t' l' differ knows := by
    cases t' with
    | receiver =>
        rw [Knows, effect.packets]
        exact knows
    | adnl => trivial
    | caller j =>
        have ne : i ≠ j := fun same => differ (same ▸ rfl)
        refine CallerPc.Knows.other effect.keeps (fun at_ => ?_) (fun out => ?_) knows
        · have elsewhere : n.monitor ≠ some i := by
            rw [at_]
            exact fun same => ne (Option.some.inj same).symm
          refine ⟨effect.aside elsewhere, ?_⟩
          rcases effect.monitor with same | ⟨free, -⟩ | ⟨mine, -⟩
          · exact same.trans at_
          · exact absurd (at_.symm.trans free) nofun
          · exact absurd mine elsewhere
        · rcases effect.monitor with same | ⟨-, mine⟩ | ⟨-, free⟩
          · rwa [same]
          · rw [mine]
            exact fun same => ne (Option.some.inj same)
          · rw [free]
            exact nofun

/-- **A step.** -/
theorem step_knows {t : ThreadId} {a : Act} {l : Loc t} {n : Process} (holds : Holds Sound Knows s)
    (h : machine.step t (s.loc t) s.shared a = some (l, n)) : StepKnows t l s.shared n := by
  have sound := holds.shared
  cases t with
  | caller i =>
      obtain ⟨sound', own, effect⟩ :=
        callerStep_knows sound (stands_of_holds holds) (holds.loc (.caller i)) h
      exact effect.stepKnows sound' own
  | receiver =>
      obtain ⟨aside, mon⟩ := receiverStep_aside h
      exact aside.stepKnows sound mon (receiverStep_inOrder (holds.loc .receiver) h)
        fun _ other => absurd rfl other
  | adnl =>
      obtain ⟨n', step, same⟩ := Option.map_eq_some_iff.mp h
      cases same
      rcases adnlStep_some step with rfl | ⟨data, some_, rfl⟩
      · exact Aside.stepKnows sound ⟨rfl, .inl rfl⟩ rfl trivial fun _ _ order => order
      · exact Aside.stepKnows sound ⟨rfl, .inl rfl⟩ rfl trivial fun _ _ => InOrder.arrive some_

/-- **The invariant.** -/
theorem holds_of_reach (h : Reach machine anyStep initial s) : Holds Sound Knows s := by
  refine Reach.threadModular ⟨fun _ => .inl .initial, fun t => ?_⟩ ?_ ?_ h
  · cases t with
    | caller i => exact nofun
    | receiver => exact ⟨List.not_mem_nil, [], rfl, .slnil, fun _ => rfl⟩
    | adnl => trivial
  · intro s t a l n _ holds _ step
    have knows := step_knows holds step
    exact ⟨knows.sound, knows.own⟩
  · intro s t a l n _ holds _ step t' differ
    exact (step_knows holds step).other t' _ differ (holds.loc t')

/-- Every step of every run keeps a context that was published. -/
theorem keeps_of_reach (h : Reach machine anyStep initial s) (later : Reach machine anyStep s s') :
    Reach machine anyStep initial s' ∧ Keeps s.shared s'.shared := by
  induction later with
  | start => exact ⟨h, .refl _⟩
  | step _ _ next ih =>
      obtain ⟨reach, keeps⟩ := ih
      obtain ⟨l, n, step, rfl⟩ := Machine.next_eq_some next
      have one := (step_knows (holds_of_reach reach) step).keeps
      exact ⟨.step reach trivial next, keeps.trans one⟩

/-- The published context has the client, which was made from the configuration, and no other
client is alive. -/
structure Serves (t : TransportConfig) (c h : Nat) (n : Guarded) : Prop where
  context : n.gContext = some c
  lives : Lives c h t.client n.toObjects

theorem Serves.keeps {t : TransportConfig} {c h : Nat} {n n' : Process} (keeps : Keeps n n')
    (serves : Serves t c h n.toGuarded) : Serves t c h n'.toGuarded where
  context := by
    rw [keeps.context (by rw [serves.context]; exact nofun)]
    exact serves.context
  lives := keeps.lives serves.context serves.lives

/-- **One client for ever.** A thread that is in `ton_adnl_client_send` is in the client of the
published context; once published, the context serves in every later state; each `initialize`
that succeeds returns it; and there is never a second client. -/
theorem one_client (h : Reach machine anyStep initial s) (later : Reach machine anyStep s s') :
    (∀ i c packet, s.loc (.caller i) = CallerPc.inside c packet →
      ∃ t ctx, Serves t ctx c s.shared.toGuarded ∧ Serves t ctx c s'.shared.toGuarded) ∧
    (∀ ctx, s.shared.gContext = some ctx →
      ∃ t c, Serves t ctx c s.shared.toGuarded ∧ Serves t ctx c s'.shared.toGuarded) ∧
    (∀ i ctx, s.loc (.caller i) = CallerPc.returned (some ctx) →
      s'.shared.gContext = some ctx) ∧
    ∀ c c', s.shared.clients c ≠ none → s.shared.clients c' ≠ none → c = c' := by
  have holds := holds_of_reach h
  obtain ⟨-, keeps⟩ := keeps_of_reach h later
  have stands := stands_of_holds holds
  refine ⟨?_, ?_, ?_, stands.1⟩
  · intro i c packet within
    have knows : CallerPc.Knows i (s.loc (.caller i)) s.shared := holds.loc (.caller i)
    rw [within] at knows
    obtain ⟨-, ctx, t, up, lives⟩ := knows
    exact ⟨t, ctx, ⟨up, lives⟩, Serves.keeps keeps ⟨up, lives⟩⟩
  · intro ctx up
    obtain ⟨c, t, lives⟩ := stands.lives up
    exact ⟨t, c, ⟨up, lives⟩, Serves.keeps keeps ⟨up, lives⟩⟩
  · intro i ctx returned
    have knows : CallerPc.Knows i (s.loc (.caller i)) s.shared := holds.loc (.caller i)
    rw [returned] at knows
    exact Returned.keeps keeps knows.2

def sampleConfig (token : String) : TransportConfig := ⟨"egress", "key", token, ""⟩

/-- `initialize` on a thread as far as `nativeContextPtr` being set. -/
def settingUp (i : Nat) (t : TransportConfig) : List (ThreadId × Act) :=
  (.caller i, .callInitialize t) :: List.replicate 14 (.caller i, .go)

/-- A first call, the end of it, and a packet. -/
def sendingRun : List (ThreadId × Act) :=
  settingUp 0 (sampleConfig "token") ++ List.replicate 5 (.caller 0, .go) ++
    [(.caller 1, .send [1]), (.caller 1, .go), (.caller 1, .go), (.caller 1, .go)]

theorem one_client_sending : ∃ t ctx, Serves t ctx 1 (machine.run initial sendingRun).shared.toGuarded := by
  have follows : machine.follows (fun _ _ _ => true) initial sendingRun = true := by decide +kernel
  obtain ⟨t, ctx, serves, -⟩ :=
    (one_client (Reach.run follows).any .start).1 1 1 [1] (by decide +kernel)
  exact ⟨t, ctx, serves⟩

/-- **The configuration in use.** `runtimeConfig` is what the client was made from; where a
context is published and nobody is in the monitor, it is set, and the receiver was started
once, as it never is twice. A failed `initialize` leaves the text of an error, until one
succeeds. -/
theorem configured (h : Reach machine anyStep initial s) :
    (∀ t, s.shared.runtimeConfig = some t → ∃ ctx c, Serves t ctx c s.shared.toGuarded) ∧
    (s.shared.gContext ≠ none → s.shared.monitor = none →
      s.shared.runtimeConfig ≠ none ∧ s.shared.receiverRunning = true ∧
        s.shared.receiverLoops = 1) ∧
    s.shared.receiverLoops ≤ 1 ∧
    ∀ i, s.loc (.caller i) = CallerPc.returned none →
      s.shared.gLastError ≠ "" ∨ s.shared.gContext ≠ none := by
  have holds := holds_of_reach h
  have stands := stands_of_holds holds
  refine ⟨?_, ?_, ?_, ?_⟩
  · intro t set
    obtain ⟨-, ⟨t', c', built⟩ | ⟨k, t', c', ⟨built, c, lives⟩, -⟩⟩ := stands
    · exact absurd (set.symm.trans built.config) nofun
    · have config := set.symm.trans built.config
      split at config
      · cases config
        exact ⟨c', c, built.context, lives⟩
      · cases config
  · intro up free
    rcases holds.shared free with blank | ⟨t, c, built, -⟩
    · exact absurd (blank.built ⟨"", "", "", ""⟩ 0).context up
    · refine ⟨?_, built.running, built.loops⟩
      rw [built.config]
      exact nofun
  · obtain ⟨-, ⟨t', c', built⟩ | ⟨k, t', c', ⟨built, -⟩, -⟩⟩ := stands
    · rw [built.loops]
      decide
    · rw [built.loops]
      split
      · exact le_refl 1
      · exact Nat.zero_le 1
  · intro i returned
    have knows : CallerPc.Knows i (s.loc (.caller i)) s.shared := holds.loc (.caller i)
    rw [returned] at knows
    exact knows.2

theorem configured_sending : ∃ ctx c,
    Serves (sampleConfig "token") ctx c (machine.run initial sendingRun).shared.toGuarded := by
  have follows : machine.follows (fun _ _ _ => true) initial sendingRun = true := by decide +kernel
  exact (configured (Reach.run follows).any).1 _ (by decide +kernel)

/-- A second thread may return with the context while `runtimeConfig` is still null: its
`openStream` would send no token. -/
example : let s := machine.run initial (settingUp 0 (sampleConfig "token") ++
      [(.caller 1, .callInitialize (sampleConfig "token")), (.caller 1, .go), (.caller 1, .go)])
    s.loc (.caller 1) = CallerPc.returned (some 0) ∧ s.shared.runtimeConfig = none := by
  decide +kernel

/-- **The packets.** What the receiver has taken, in the order in which it arrived, is what
`receivePacket` returned or is about to, unless an array could not be allocated. -/
theorem packets_in_order (h : Reach machine anyStep initial s) :
    ∃ taken, taken ++ s.shared.gInboundQueue = s.shared.arrived ∧
      List.Sublist (s.shared.received ++ ReceiverPc.inHand (s.loc .receiver)) taken ∧
      (s.shared.refused = false →
        s.shared.received ++ ReceiverPc.inHand (s.loc .receiver) = taken) :=
  ((holds_of_reach h).loc .receiver).order

/-- Three packets, the first of them received, and the second taken when no array is left. -/
def receivingRun : List (ThreadId × Act) :=
  List.flatten [settingUp 0 (sampleConfig "token"), List.replicate 5 (.caller 0, .go),
    [(.adnl, .arrives 1 [1]), (.adnl, .arrives 1 [2]), (.adnl, .arrives 1 [3])],
    List.replicate 9 (.receiver, .go), [(.receiver, .fails)]]

theorem packets_in_order_receiving : ∃ taken : List Bytes,
    taken ++ [[3]] = [[1], [2], [3]] ∧ List.Sublist [[1]] taken := by
  have follows : machine.follows (fun _ _ _ => true) initial receivingRun = true := by
    decide +kernel
  have queue : (machine.run initial receivingRun).shared.gInboundQueue = [[3]] := by decide +kernel
  have arrived : (machine.run initial receivingRun).shared.arrived = [[1], [2], [3]] := by
    decide +kernel
  have received : (machine.run initial receivingRun).shared.received ++
      ReceiverPc.inHand ((machine.run initial receivingRun).loc .receiver) = [[1]] := by
    decide +kernel
  obtain ⟨taken, all, within, -⟩ := packets_in_order (Reach.run follows).any
  rw [queue, arrived] at all
  rw [received] at within
  exact ⟨taken, all, within⟩

end TonTunnel.NativeContext
