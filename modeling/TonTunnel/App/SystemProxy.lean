import Mathlib.Data.UInt
import Mathlib.Data.List.Infix

/-!
The system proxy and the desktop application (`TON-Tunnel.cpp`).

START points the user's Internet Settings at the local SOCKS5 server, STOP and the end
of the window put back what was there. What was there is kept in `g_prevProxy`, and in a
file for the next launch.

* The registry is modelled by the three values that the code writes;
  `InternetSettings.effective` is the proxy they put in force.
* A call of Windows that can fail (`RegOpenKeyExW`, `InternetQueryOptionW`, opening the
  file) takes its result as an argument.
* `Event` and `next` are the events of one process: the two buttons, the end of the
  window, and the user's own edits of the settings.

The first START sets `captured` and nothing resets it, so every later `stopCore`, the one
at the head of `startTunnel` included, puts back what the first START found.
`stop_gives_back` is what remains true; `edit_lost_at_second_stop` is a run in which the
user's edit is lost.
-/

namespace TonTunnel.App

/-! ### The settings -/

/-- A proxy in force: a server, never the empty one, and the list of hosts it is not used for. -/
structure Proxy where
  server : List Char
  bypass : List Char
  server_ne : server ≠ []
  deriving DecidableEq

/-- The values under `Internet Settings`. -/
structure InternetSettings where
  proxyEnable : UInt32
  proxyServer : List Char
  proxyOverride : List Char
  deriving DecidableEq

/-- The proxy that the settings put in force. -/
def InternetSettings.effective (r : InternetSettings) : Option Proxy :=
  if h : r.proxyEnable = 1 ∧ r.proxyServer ≠ [] then some ⟨r.proxyServer, r.proxyOverride, h.2⟩
  else none

def INTERNET_OPEN_TYPE_PRECONFIG : UInt32 := 0

def INTERNET_OPEN_TYPE_DIRECT : UInt32 := 1

def INTERNET_OPEN_TYPE_PROXY : UInt32 := 3

/-- What is kept of the settings (`ProxyState`). -/
structure ProxyState where
  captured : Bool := false
  accessType : UInt32 := INTERNET_OPEN_TYPE_PRECONFIG
  proxy : List Char := []
  bypass : List Char := []
  deriving DecidableEq

/-- `InternetQueryOptionW` with `INTERNET_OPTION_PROXY`, as `captureSystemProxyState` keeps
its answer. -/
def ProxyState.ofEffective : Option Proxy → ProxyState
  | some p => ⟨true, INTERNET_OPEN_TYPE_PROXY, p.server, p.bypass⟩
  | none => ⟨true, INTERNET_OPEN_TYPE_DIRECT, [], []⟩

/-- The proxy that a kept state stands for. -/
def ProxyState.saved (st : ProxyState) : Option Proxy :=
  if h : st.accessType = INTERNET_OPEN_TYPE_PROXY ∧ st.proxy ≠ [] then
    some ⟨st.proxy, st.bypass, h.2⟩
  else none

/-- The writes of `restoreSystemProxy` and `recoverStaleTonProxyIfNeeded`. Without a proxy
only `ProxyEnable` is written. -/
def InternetSettings.writeBack (r : InternetSettings) (st : ProxyState) : InternetSettings :=
  if st.accessType = INTERNET_OPEN_TYPE_PROXY ∧ st.proxy ≠ [] then
    { r with proxyServer := st.proxy, proxyOverride := st.bypass, proxyEnable := 1 }
  else { r with proxyEnable := 0 }

@[simp]
theorem ProxyState.ofEffective_captured (e : Option Proxy) : (ofEffective e).captured = true := by
  cases e <;> rfl

@[simp]
theorem ProxyState.saved_ofEffective (e : Option Proxy) : (ofEffective e).saved = e := by
  cases e with
  | none => rfl
  | some p => exact dif_pos ⟨rfl, p.server_ne⟩

@[simp]
theorem InternetSettings.effective_writeBack (r : InternetSettings) (st : ProxyState) :
    (r.writeBack st).effective = st.saved := by
  unfold writeBack ProxyState.saved
  split
  next h => exact dif_pos ⟨rfl, h.2⟩
  next => exact dif_neg fun h => absurd h.1 (by decide : (0 : UInt32) ≠ 1)

/-! ### The application -/

/-- `cfg.socksPort` as `loadRuntimeConfig` leaves it. -/
structure SocksPort where
  val : Nat
  pos : 0 < val
  le : val ≤ 65535
  deriving DecidableEq

/-- `socks=127.0.0.1:<port>`. -/
def ownServer (port : SocksPort) : List Char :=
  "socks=127.0.0.1:".toList ++ Nat.toDigits 10 port.val

/-- What `applySystemSocksProxy` puts in force. -/
def ownProxy (port : SocksPort) : Proxy where
  server := ownServer port
  bypass := "<local>".toList
  server_ne := List.append_ne_nil_of_left_ne_nil (by decide) _

/-- The text of `ton-proxy-state.txt`. -/
def ProxyState.text (st : ProxyState) : List Char :=
  Nat.toDigits 10 st.accessType.toNat ++ '\n' :: (st.proxy ++ '\n' :: (st.bypass ++ ['\n']))

/-- The user's settings, the state file, and the globals of the process. `running` is the
state between a START that went through and the next `stopCore`, when only the STOP button
is enabled. -/
structure Desktop where
  registry : InternetSettings
  stateFile : Option (List Char)
  prevProxy : ProxyState := {}
  running : Bool := false
  window : Bool := true
  deriving DecidableEq

def captureSystemProxyState (queryWorks fileOpens : Bool) (d : Desktop) : Desktop :=
  if queryWorks then
    let st := ProxyState.ofEffective d.registry.effective
    { d with
      prevProxy := st
      stateFile := if fileOpens then some st.text else d.stateFile }
  else d

def applySystemSocksProxy (port : SocksPort) (queryWorks fileOpens keyOpens : Bool)
    (d : Desktop) : Desktop :=
  let d := if d.prevProxy.captured then d else captureSystemProxyState queryWorks fileOpens d
  if keyOpens then
    { d with registry := ⟨1, ownServer port, "<local>".toList⟩ }
  else d

/-- `captured` stays set. -/
def restoreSystemProxy (keyOpens : Bool) (d : Desktop) : Desktop :=
  if d.prevProxy.captured ∧ keyOpens then
    { d with registry := d.registry.writeBack d.prevProxy, stateFile := none }
  else d

def stopCore (keyOpens : Bool) (d : Desktop) : Desktop :=
  { restoreSystemProxy keyOpens d with running := false }

/-- How far `startTunnel` comes after its `stopCore`. -/
inductive Attempt where
  /-- The configuration is not complete: `startTunnel` returns. -/
  | noConfig
  /-- The ADNL backend, the core or the SOCKS5 server does not start: `stopCore` again. -/
  | failed (keyOpens : Bool)
  /-- The system proxy is set, and the window says so even if the key did not open. -/
  | applies (port : SocksPort) (queryWorks fileOpens keyOpens : Bool)
  deriving DecidableEq

def startTunnel (keyOpens : Bool) (attempt : Attempt) (d : Desktop) : Desktop :=
  let d := stopCore keyOpens d
  match attempt with
  | .noConfig => d
  | .failed again => stopCore again d
  | .applies port queryWorks fileOpens keyOpens =>
      { applySystemSocksProxy port queryWorks fileOpens keyOpens d with running := true }

/-! ### Runs of one process -/

inductive Event where
  /-- START, or the message that the window posts to itself when it is created. -/
  | start (keyOpens : Bool) (attempt : Attempt)
  | stop (keyOpens : Bool)
  /-- `WM_DESTROY`. -/
  | close (keyOpens : Bool)
  /-- The user changes the settings, with the tunnel stopped. -/
  | edit (registry : InternetSettings)
  deriving DecidableEq

/-- START is enabled while the tunnel is stopped; the buttons are gone with the window. -/
def next (d : Desktop) : Event → Option Desktop
  | .start keyOpens attempt =>
      if d.window ∧ d.running = false then some (startTunnel keyOpens attempt d) else none
  | .stop keyOpens => if d.window then some (stopCore keyOpens d) else none
  | .close keyOpens => if d.window then some { stopCore keyOpens d with window := false } else none
  | .edit registry => if d.running = false then some { d with registry } else none

/-- A process after `WM_CREATE`, over any settings and any file. -/
def launched (registry : InternetSettings) (stateFile : Option (List Char)) : Desktop :=
  { registry, stateFile }

/-- The events of a run, each with the state it finds, whose steps all pass `ok`. -/
inductive Run (ok : List (Desktop × Event) → Desktop → Event → Prop) (d₀ : Desktop) :
    List (Desktop × Event) → Desktop → Prop
  | launch : Run ok d₀ [] d₀
  | step {tr : List (Desktop × Event)} {d d' : Desktop} {e : Event} :
      Run ok d₀ tr d → ok tr d e → next d e = some d' → Run ok d₀ (tr ++ [(d, e)]) d'

def Event.isStart : Event → Bool
  | .start _ _ => true
  | _ => false

/-- STOP and the end of the window. -/
def Event.ends : Event → Bool
  | .stop _ | .close _ => true
  | _ => false

/-- The proxy in force just before the last START. -/
def foundByStart (tr : List (Desktop × Event)) : Option (Option Proxy) :=
  (tr.reverse.find? (·.2.isStart)).map (·.1.registry.effective)

/-- The proxy in force before the user's last edits, from the latest event backwards. -/
def beforeEdits : List (Desktop × Event) → Desktop → Option Proxy
  | (d, .edit _) :: earlier, _ => beforeEdits earlier d
  | _, d => d.registry.effective

/-- The proxy in force when the application last acted. -/
def leftByApp (tr : List (Desktop × Event)) (d : Desktop) : Option Proxy := beforeEdits tr.reverse d

/-- A running tunnel's proxy is given back, a stopped one's left as it is. -/
def GivesBack (tr : List (Desktop × Event)) (d d' : Desktop) : Prop :=
  (d.running = true → foundByStart tr = some d'.registry.effective) ∧
  (d.running = false → d'.registry.effective = d.registry.effective)

/-- With the tunnel stopped and a proxy captured, the user's edits have changed nothing. -/
def Unedited (tr : List (Desktop × Event)) (d : Desktop) : Prop :=
  d.running = false → d.prevProxy.captured = true → d.registry.effective = leftByApp tr d

/-- What the defect needs does not happen: no button is pressed and no window closed over an
edit, and the calls that matter succeed. -/
def Kept (tr : List (Desktop × Event)) (d : Desktop) : Event → Prop
  | .start _ (.applies _ queryWorks _ _) =>
      (d.prevProxy.captured = false → queryWorks = true) ∧ Unedited tr d
  | .start _ _ => Unedited tr d
  | .stop keyOpens | .close keyOpens => (d.running = true → keyOpens = true) ∧ Unedited tr d
  | .edit _ => True

/-- A running tunnel can give back what its START found, and a stopped one left in force what
it keeps. -/
structure Restorable (tr : List (Desktop × Event)) (d : Desktop) : Prop where
  found : d.running = true → d.prevProxy.captured = true ∧ foundByStart tr = some d.prevProxy.saved
  left : d.running = false → d.prevProxy.captured = true → leftByApp tr d = d.prevProxy.saved

variable {tr : List (Desktop × Event)} {d d' : Desktop} {e : Event} {keyOpens : Bool}

theorem foundByStart_concat_start {attempt : Attempt} :
    foundByStart (tr ++ [(d, .start keyOpens attempt)]) = some d.registry.effective := by
  simp [foundByStart, Event.isStart]

theorem leftByApp_concat_edit {registry : InternetSettings} :
    leftByApp (tr ++ [(d, .edit registry)]) d' = leftByApp tr d := by
  simp [leftByApp, beforeEdits]

theorem leftByApp_concat (acts : ∀ registry, e ≠ .edit registry) :
    leftByApp (tr ++ [(d, e)]) d' = d'.registry.effective := by
  cases e with
  | edit registry => exact absurd rfl (acts registry)
  | _ => simp [leftByApp, beforeEdits]

/-! #### What the application does to the settings -/

@[simp]
theorem stopCore_prevProxy : (stopCore keyOpens d).prevProxy = d.prevProxy := by
  unfold stopCore restoreSystemProxy
  split <;> rfl

theorem stopCore_effective (captured : d.prevProxy.captured = true) :
    (stopCore true d).registry.effective = d.prevProxy.saved := by
  simp [stopCore, restoreSystemProxy, captured]

theorem stopCore_registry (idle : ¬ (d.prevProxy.captured = true ∧ keyOpens = true)) :
    (stopCore keyOpens d).registry = d.registry := by
  simp only [stopCore, restoreSystemProxy, if_neg idle]

/-- A stop that finds in force what is kept changes nothing in force. -/
theorem stopCore_effective_of_saved
    (same : d.prevProxy.captured = true → d.registry.effective = d.prevProxy.saved) :
    (stopCore keyOpens d).registry.effective = d.registry.effective := by
  by_cases writes : d.prevProxy.captured = true ∧ keyOpens = true
  · obtain ⟨captured, rfl⟩ := writes
    rw [stopCore_effective captured, same captured]
  · rw [stopCore_registry writes]

/-- The first START keeps what it finds, a later one what the first one found. -/
theorem applySystemSocksProxy_prevProxy (port : SocksPort) (queryWorks fileOpens keyOpens : Bool)
    (d : Desktop) :
    (applySystemSocksProxy port queryWorks fileOpens keyOpens d).prevProxy =
      if d.prevProxy.captured = false ∧ queryWorks = true
      then ProxyState.ofEffective d.registry.effective else d.prevProxy := by
  cases captured : d.prevProxy.captured <;> cases queryWorks <;> cases keyOpens <;>
    simp [applySystemSocksProxy, captureSystemProxyState, captured]

/-! #### The invariant -/

/-- What is in force when the application acts on a stopped tunnel is what it keeps. -/
theorem Restorable.effective (inv : Restorable tr d) (unedited : Unedited tr d)
    (stopped : d.running = false) (captured : d.prevProxy.captured = true) :
    d.registry.effective = d.prevProxy.saved :=
  (unedited stopped captured).trans (inv.left stopped captured)

/-- After a stop, what is kept is in force. -/
theorem Restorable.stopped (inv : Restorable tr d) (unedited : Unedited tr d)
    (opens : d.running = true → keyOpens = true) (captured : d.prevProxy.captured = true) :
    (stopCore keyOpens d).registry.effective = d.prevProxy.saved := by
  cases running : d.running with
  | true => rw [opens running, stopCore_effective captured]
  | false =>
      have same := inv.effective unedited running
      rw [stopCore_effective_of_saved same, same captured]

theorem Restorable.of_stopped (stopped : d'.running = false) (acts : ∀ registry, e ≠ .edit registry)
    (kept : d'.prevProxy.captured = true → d'.registry.effective = d'.prevProxy.saved) :
    Restorable (tr ++ [(d, e)]) d' where
  found running := absurd running (by simp [stopped])
  left _ captured := by rw [leftByApp_concat acts, kept captured]

theorem Restorable.stop (inv : Restorable tr d) (unedited : Unedited tr d)
    (opens : d.running = true → keyOpens = true) (acts : ∀ registry, e ≠ .edit registry) :
    Restorable (tr ++ [(d, e)]) (stopCore keyOpens d) := by
  refine .of_stopped rfl acts fun captured => ?_
  rw [stopCore_prevProxy] at captured ⊢
  exact inv.stopped unedited opens captured

theorem Restorable.start {attempt : Attempt} (inv : Restorable tr d) (stopped : d.running = false)
    (kept : Kept tr d (.start keyOpens attempt)) :
    Restorable (tr ++ [(d, .start keyOpens attempt)]) (startTunnel keyOpens attempt d) := by
  have opens : ∀ {keyOpens : Bool}, d.running = true → keyOpens = true := fun running =>
    absurd running (by simp [stopped])
  cases attempt with
  | noConfig => exact inv.stop kept opens (by simp)
  | failed again =>
      refine .of_stopped rfl (by simp) fun captured => ?_
      simp only [startTunnel, stopCore_prevProxy] at captured ⊢
      have same : (stopCore keyOpens d).registry.effective = d.prevProxy.saved :=
        inv.stopped kept opens captured
      rw [stopCore_effective_of_saved (by simp [same]), same]
  | applies port queryWorks fileOpens keyOpens' =>
      obtain ⟨works, unedited⟩ := kept
      refine ⟨fun _ => ?_, nofun⟩
      rw [foundByStart_concat_start]
      simp only [startTunnel, applySystemSocksProxy_prevProxy, stopCore_prevProxy]
      cases captured : d.prevProxy.captured with
      | true => simp [captured, inv.effective unedited stopped captured]
      | false =>
          rw [if_pos ⟨rfl, works captured⟩, stopCore_registry (by simp [captured])]
          simp

theorem Restorable.step (inv : Restorable tr d) (kept : Kept tr d e) (h : next d e = some d') :
    Restorable (tr ++ [(d, e)]) d' := by
  cases e with
  | start keyOpens attempt =>
      obtain ⟨⟨-, stopped⟩, rfl⟩ := Option.ite_none_right_eq_some.mp h |>.imp_right Option.some.inj
      exact inv.start stopped kept
  | stop keyOpens =>
      obtain ⟨-, rfl⟩ := Option.ite_none_right_eq_some.mp h |>.imp_right Option.some.inj
      exact inv.stop kept.2 kept.1 (by simp)
  | close keyOpens =>
      obtain ⟨-, rfl⟩ := Option.ite_none_right_eq_some.mp h |>.imp_right Option.some.inj
      refine .of_stopped rfl (by simp) fun captured => ?_
      simp only [stopCore_prevProxy] at captured ⊢
      exact inv.stopped kept.2 kept.1 captured
  | edit registry =>
      obtain ⟨stopped, rfl⟩ := Option.ite_none_right_eq_some.mp h |>.imp_right Option.some.inj
      refine ⟨fun running => absurd running (by simp [stopped]), fun _ captured => ?_⟩
      rw [leftByApp_concat_edit]
      exact inv.left stopped captured

theorem Run.restorable {registry : InternetSettings} {stateFile : Option (List Char)}
    (run : Run Kept (launched registry stateFile) tr d) : Restorable tr d := by
  induction run with
  | launch => exact ⟨nofun, nofun⟩
  | step _ kept h inv => exact inv.step kept h

/-- What an end of the tunnel leaves in force. -/
theorem next_ends_registry (ends : e.ends = true) (h : next d e = some d') (kept : Kept tr d e) :
    ∃ keyOpens, d'.registry = (stopCore keyOpens d).registry ∧
      (d.running = true → keyOpens = true) ∧ Unedited tr d := by
  cases e with
  | stop keyOpens =>
      obtain ⟨-, rfl⟩ := Option.ite_none_right_eq_some.mp h |>.imp_right Option.some.inj
      exact ⟨keyOpens, rfl, kept⟩
  | close keyOpens =>
      obtain ⟨-, rfl⟩ := Option.ite_none_right_eq_some.mp h |>.imp_right Option.some.inj
      exact ⟨keyOpens, rfl, kept⟩
  | start => cases ends
  | edit => cases ends

/-- In every run in which no button is pressed and no window closed over an edit, STOP and
the end of the window give back the proxy that the START found, and leave a stopped tunnel's
settings as they are. -/
theorem stop_gives_back {registry : InternetSettings} {stateFile : Option (List Char)}
    (run : Run Kept (launched registry stateFile) tr d) (kept : Kept tr d e)
    (ends : e.ends = true) (h : next d e = some d') : GivesBack tr d d' := by
  obtain ⟨keyOpens, left, opens, unedited⟩ := next_ends_registry ends h kept
  have inv := run.restorable
  constructor
  · intro running
    obtain ⟨captured, found⟩ := inv.found running
    rw [found, left, inv.stopped unedited opens captured]
  · intro stopped
    rw [left, stopCore_effective_of_saved (inv.effective unedited stopped)]

/-! #### Two runs -/

/-- Every call of Windows that the event makes succeeds. -/
def Event.succeeds : Event → Bool
  | .start keyOpens (.applies _ queryWorks fileOpens keyOpens') =>
      keyOpens && queryWorks && fileOpens && keyOpens'
  | .start keyOpens (.failed again) => keyOpens && again
  | .start keyOpens .noConfig | .stop keyOpens | .close keyOpens => keyOpens
  | .edit _ => true

def noProxy : InternetSettings := ⟨0, [], []⟩

def officeProxy : InternetSettings := ⟨1, "10.0.0.1:3128".toList, "intranet".toList⟩

def defaultPort : SocksPort := ⟨1080, by decide, by decide⟩

/-- START, up to the status line that says the tunnel is running. -/
def starts : Event := .start true (.applies defaultPort true true true)

theorem office_proxy_given_back :
    let d := launched officeProxy none
    let d' := startTunnel true (.applies defaultPort true true true) d
    Run Kept d [(d, starts)] d' ∧ d'.running = true ∧
      d'.registry.effective = some (ownProxy defaultPort) ∧
      GivesBack [(d, starts)] d' (stopCore true d') := by
  intro d d'
  have kept : Kept [] d starts := ⟨fun _ => rfl, nofun⟩
  have run : Run Kept d [(d, starts)] d' := .step .launch kept rfl
  refine ⟨run, rfl, by decide +kernel, ?_⟩
  exact stop_gives_back run (e := .stop true) ⟨fun _ => rfl, nofun⟩ rfl rfl

/-- The tunnel runs once over no proxy, the user sets a proxy, and the tunnel runs once
more: the second STOP switches the user's proxy off. -/
theorem edit_lost_at_second_stop : ∃ tr d d',
    Run (fun _ _ e => e.succeeds = true) (launched noProxy none) tr d ∧
      tr.map (·.2) = [starts, .stop true, .edit officeProxy, starts] ∧
      next d (.stop true) = some d' ∧ ¬ GivesBack tr d d' := by
  let d₁ := startTunnel true (.applies defaultPort true true true) (launched noProxy none)
  let d₂ := stopCore true d₁
  let d₃ : Desktop := { d₂ with registry := officeProxy }
  let d₄ := startTunnel true (.applies defaultPort true true true) d₃
  refine ⟨_, d₄, stopCore true d₄, .step (.step (.step (.step .launch ?_ rfl) ?_ rfl) ?_ rfl) ?_ rfl,
    rfl, rfl, fun givesBack => ?_⟩
  any_goals rfl
  have given := givesBack.1 rfl
  exact absurd given (by decide +kernel)

end TonTunnel.App
