import Mathlib.Data.List.TakeWhile
import TonTunnel.App.SystemProxy
import TonTunnel.Lib.WhiteSpace

/-!
The system proxy across processes.

A process that is killed while the tunnel runs leaves the tunnel's own proxy in force and
what it found in `ton-proxy-state.txt`. Every process reads both in
`recoverStaleTonProxyIfNeeded`, before it starts the tunnel on its own: the next one, and
the first one too, which may find there a proxy of the user's.

* `loadProxyStateFromDisk` reads back what `captureSystemProxyState` wrote, unless a proxy
  has a line break in it (`load_text`, `readBack`).
* `session` is the n-th process in a row that is killed while the tunnel runs.
* The test for a stale proxy looks for `127.0.0.1:1080`, whatever the port is
  (`staleTonProxy_ownSettings`), so `crash_recovery` is about the ports whose digits begin
  with 1080, and about settings that the first process leaves alone (`Survives`).
-/

namespace TonTunnel.App

open WhiteSpace (isspace)

/-! ### Reading the state file -/

/-- `std::getline`: the line and what follows it; fails with nothing left to read. -/
def getline (input : List Char) : Option (List Char × List Char) :=
  if input = [] then none
  else some (input.takeWhile (· ≠ '\n'), (input.dropWhile (· ≠ '\n')).drop 1)

/-- What `strtol` and `strtoul` read in base 10: whether there is a minus sign, and the
digits. -/
def scanNumber (s : List Char) : Bool × List Char :=
  match s.dropWhile fun c => isspace c.toNat with
  | '-' :: rest => (true, rest.takeWhile Char.isDigit)
  | '+' :: rest => (false, rest.takeWhile Char.isDigit)
  | rest => (false, rest.takeWhile Char.isDigit)

/-- `std::stoul`; `none` is an exception. -/
def stoul (s : List Char) : Option UInt32 :=
  let (minus, digits) := scanNumber s
  let n := Nat.ofDigitChars 10 digits 0
  if digits = [] ∨ 2 ^ 32 ≤ n then none
  else some (if minus then -UInt32.ofNat n else UInt32.ofNat n)

def loadProxyStateFromDisk (stateFile : Option (List Char)) : Option ProxyState := do
  let input ← stateFile
  let (line0, input) ← getline input
  let (line1, input) := (getline input).getD ([], input)
  let (line2, _) := (getline input).getD ([], input)
  let accessType ← stoul line0
  return ⟨true, accessType, line1, line2⟩

/-- What `recoverStaleTonProxyIfNeeded` looks for in `ProxyServer`. -/
def staleServer : List Char := "127.0.0.1:1080".toList

/-- The buffer for `ProxyServer` holds 1024 characters with the terminator; a longer value is
read as none. -/
def InternetSettings.staleTonProxy (r : InternetSettings) : Bool :=
  r.proxyEnable = 1 ∧ staleServer <:+: if r.proxyServer.length < 1024 then r.proxyServer else []

def recoverStaleTonProxyIfNeeded (keyOpens : Bool) (d : Desktop) : Desktop :=
  if keyOpens ∧ d.registry.staleTonProxy then
    match loadProxyStateFromDisk d.stateFile with
    | some diskState =>
        { d with registry := d.registry.writeBack diskState, stateFile := none }
    | none => { d with registry := { d.registry with proxyEnable := 0 }, stateFile := none }
  else d

/-! ### The configured port -/

/-- `std::atoi`. A value that does not fit an `int` is out of range for a port either way. -/
def atoi (s : List Char) : Int :=
  let (minus, digits) := scanNumber s
  let n : Int := Nat.ofDigitChars 10 digits 0
  if minus then -n else n

/-- `loadFromJson` on the field `socks5_port`. -/
def loadSocksPort (cfg : SocksPort) (socksPortStr : List Char) : SocksPort :=
  if cfg.val = 1080 ∧ socksPortStr ≠ [] then
    let p := atoi socksPortStr
    if h : 0 < p ∧ p ≤ 65535 then ⟨p.toNat, by omega, by omega⟩ else cfg
  else cfg

/-! ### What the file gives back -/

/-- A proxy that fits the lines of the state file. -/
def OneLine (e : Option Proxy) : Prop := ∀ p ∈ e, '\n' ∉ p.server ∧ '\n' ∉ p.bypass

variable {line rest : List Char}

theorem getline_line (clean : '\n' ∉ line) : getline (line ++ '\n' :: rest) = some (line, rest) := by
  have notBreak : ∀ c ∈ line, decide (c ≠ '\n') = true := by
    intro c mem
    exact decide_eq_true fun same => clean (same ▸ mem)
  rw [getline, if_neg (by simp), List.takeWhile_append_of_pos notBreak,
    List.dropWhile_append_of_pos notBreak]
  simp

theorem getline_clean {input : List Char} (h : getline input = some (line, rest)) :
    '\n' ∉ line := by
  obtain ⟨-, h⟩ := Option.ite_none_left_eq_some.mp h
  cases h
  intro mem
  simpa using List.mem_takeWhile_imp mem

theorem notDigit_notMem_toDigits {c : Char} (notDigit : c.isDigit = false) (n : Nat) :
    c ∉ Nat.toDigits 10 n := by
  intro mem
  rw [Nat.isDigit_of_mem_toDigits (by decide) (by decide) mem] at notDigit
  cases notDigit

/-- What was captured is read back. -/
theorem load_text {e : Option Proxy} (oneLine : OneLine e) :
    loadProxyStateFromDisk (some (ProxyState.ofEffective e).text) = some (.ofEffective e) := by
  have lines : '\n' ∉ (ProxyState.ofEffective e).proxy ∧ '\n' ∉ (ProxyState.ofEffective e).bypass := by
    cases e with
    | none => exact ⟨List.not_mem_nil, List.not_mem_nil⟩
    | some p => exact oneLine p rfl
  have number : stoul (Nat.toDigits 10 (ProxyState.ofEffective e).accessType.toNat) =
      some (ProxyState.ofEffective e).accessType := by
    cases e with
    | none => exact (by decide +kernel : stoul (Nat.toDigits 10 1) = some 1)
    | some p => exact (by decide +kernel : stoul (Nat.toDigits 10 3) = some 3)
  have whole : (⟨true, (ProxyState.ofEffective e).accessType, (ProxyState.ofEffective e).proxy,
      (ProxyState.ofEffective e).bypass⟩ : ProxyState) = .ofEffective e := by
    cases e <;> rfl
  simp only [loadProxyStateFromDisk, ProxyState.text, Option.bind_eq_bind, Option.bind_some,
    getline_line (notDigit_notMem_toDigits (by decide) _), getline_line lines.1, getline_line lines.2,
    Option.getD_some, number, whole, Option.pure_def]

/-- Whatever is read back has no line break. -/
theorem load_oneLine {stateFile : Option (List Char)} {st : ProxyState}
    (h : loadProxyStateFromDisk stateFile = some st) : OneLine st.saved := by
  have cleanLine : ∀ input : List Char, '\n' ∉ ((getline input).getD ([], input)).1 := by
    intro input
    cases read : getline input with
    | none => exact List.not_mem_nil
    | some p => exact getline_clean read
  simp only [loadProxyStateFromDisk, Option.bind_eq_bind, Option.bind_eq_some_iff, Option.pure_def,
    Option.some.injEq] at h
  obtain ⟨_, -, _, -, _, -, rfl⟩ := h
  intro p mem
  obtain ⟨_, h⟩ := Option.dite_none_right_eq_some.mp mem
  cases h
  exact ⟨cleanLine _, cleanLine _⟩

theorem scanNumber_toDigits (n : Nat) :
    scanNumber (Nat.toDigits 10 n) = (false, Nat.toDigits 10 n) := by
  have digits : ∀ c ∈ Nat.toDigits 10 n, c.isDigit = true := fun c mem =>
    Nat.isDigit_of_mem_toDigits (by decide) (by decide) mem
  generalize Nat.toDigits 10 n = s at digits
  cases s with
  | nil => rfl
  | cons c rest =>
      have digit := digits c List.mem_cons_self
      have range : 48 ≤ c.toNat ∧ c.toNat ≤ 57 := Char.isDigit_iff_toNat.mp digit
      have notSpace : isspace c.toNat = false := by
        simp only [isspace, Bool.or_eq_false_iff, decide_eq_false_iff_not, Bool.and_eq_false_iff]
        omega
      rw [scanNumber, List.dropWhile_cons_of_neg (by simp [notSpace])]
      have all := List.takeWhile_eq_self_iff.mpr digits
      split
      next eq => cases eq; exact absurd digit (by decide)
      next eq => cases eq; exact absurd digit (by decide)
      next => rw [all]

/-- Every port from 1 to 65535 can be configured. -/
theorem loadSocksPort_toDigits (port : SocksPort) :
    loadSocksPort defaultPort (Nat.toDigits 10 port.val) = port := by
  have number : atoi (Nat.toDigits 10 port.val) = port.val := by
    simp [atoi, scanNumber_toDigits]
  have inRange : 0 < (port.val : Int) ∧ (port.val : Int) ≤ 65535 := by
    have := port.pos
    have := port.le
    omega
  rw [loadSocksPort, if_pos ⟨rfl, Nat.toDigits_ne_nil⟩]
  simp only [number, dif_pos inRange, Int.toNat_natCast]

/-! ### Which ports are recognised -/

variable {port : SocksPort}

theorem dropWhile_ne_append {c : Char} (clean : c ∉ line) :
    (line ++ c :: rest).dropWhile (· ≠ c) = c :: rest := by
  have others : ∀ x ∈ line, decide (x ≠ c) = true := by
    intro x mem
    exact decide_eq_true fun same => clean (same ▸ mem)
  rw [List.dropWhile_append_of_pos others]
  simp

/-- A text with one `c` can hold what is looked for at one place only. -/
theorem prefix_of_infix {c : Char} {x y : List Char} (clean : c ∉ line) (cleanRest : c ∉ rest)
    (h : x ++ c :: y <:+: line ++ c :: rest) : y <+: rest := by
  obtain ⟨before, after, same⟩ := h
  have notBefore : c ∉ before ++ x := by
    have counts := congrArg (List.count c) same
    have none := List.count_eq_zero.mpr clean
    have noneRest := List.count_eq_zero.mpr cleanRest
    simp only [List.count_append, List.count_cons_self] at counts
    rw [← List.count_eq_zero, List.count_append]
    omega
  have regroup : before ++ (x ++ c :: y) ++ after = before ++ x ++ c :: (y ++ after) := by simp
  have behind := congrArg (List.dropWhile (· ≠ c)) (regroup.symm.trans same)
  rw [dropWhile_ne_append clean, dropWhile_ne_append notBefore] at behind
  exact ⟨after, (List.cons.inj behind).2⟩

theorem stale_infix_iff :
    staleServer <:+: ownServer port ↔ ['1', '0', '8', '0'] <+: Nat.toDigits 10 port.val := by
  have stale : staleServer = "127.0.0.1".toList ++ ':' :: ['1', '0', '8', '0'] := by
    change "127.0.0.1:1080".toList = _
    simp
  have own : ownServer port = "socks=127.0.0.1".toList ++ ':' :: Nat.toDigits 10 port.val := by
    change "socks=127.0.0.1:".toList ++ _ = _
    simp
  constructor
  · intro h
    rw [stale, own] at h
    exact prefix_of_infix (by simp) (notDigit_notMem_toDigits (by decide) _) h
  · rintro ⟨after, same⟩
    refine ⟨"socks=".toList, after, ?_⟩
    simp [own, ← same, stale]

theorem eq_1080_of_toDigits {n : Nat} (h : Nat.toDigits 10 n = ['1', '0', '8', '0']) : n = 1080 := by
  rw [← Nat.ofDigitChars_ten_toDigits (n := n), h]
  decide

theorem length_toDigits_port (port : SocksPort) : (Nat.toDigits 10 port.val).length ≤ 5 := by
  rw [Nat.length_toDigits_le_iff (by decide) (by decide)]
  have := port.le
  omega

theorem prefix_toDigits_iff :
    ['1', '0', '8', '0'] <+: Nat.toDigits 10 port.val ↔ port.val = 1080 ∨ port.val / 10 = 1080 := by
  constructor
  · rintro ⟨after, same⟩
    have short := length_toDigits_port port
    match after with
    | [] => exact .inl (eq_1080_of_toDigits same.symm)
    | [c] =>
        by_cases small : port.val < 10
        · simp [Nat.toDigits_of_lt_base small] at same
        · rw [Nat.toDigits_of_base_le (by decide) (by omega)] at same
          exact .inr (eq_1080_of_toDigits (List.append_inj_left' same rfl).symm)
    | _ :: _ :: _ =>
        have lengths := congrArg List.length same
        simp only [List.length_append, List.length_cons] at lengths
        omega
  · rintro (same | same)
    · rw [same]
      decide
    · have large : 10 ≤ port.val := by omega
      rw [Nat.toDigits_of_base_le (by decide) large, same]
      exact (by decide : ['1', '0', '8', '0'] = Nat.toDigits 10 1080) ▸ List.prefix_append _ _

/-- A port whose own proxy `recoverStaleTonProxyIfNeeded` takes for a stale one: 1080, or one
of 10800 to 10809. -/
def Recognised (port : SocksPort) : Prop := port.val = 1080 ∨ port.val / 10 = 1080

/-- The settings that `applySystemSocksProxy` writes. -/
def ownSettings (port : SocksPort) : InternetSettings := ⟨1, ownServer port, "<local>".toList⟩

theorem effective_ownSettings : (ownSettings port).effective = some (ownProxy port) :=
  dif_pos ⟨rfl, (ownProxy port).server_ne⟩

theorem staleTonProxy_ownSettings : (ownSettings port).staleTonProxy = true ↔ Recognised port := by
  have short : (ownServer port).length < 1024 := by
    have := length_toDigits_port port
    change ("socks=127.0.0.1:".toList ++ _).length < 1024
    rw [List.length_append, String.length_toList]
    exact Nat.lt_of_le_of_lt (Nat.add_le_add_left this 16) (by decide)
  rw [InternetSettings.staleTonProxy, decide_eq_true_iff, if_pos (by exact short)]
  exact ⟨fun h => prefix_toDigits_iff.mp (stale_infix_iff.mp h.2),
    fun h => ⟨rfl, stale_infix_iff.mpr (prefix_toDigits_iff.mpr h)⟩⟩

/-! ### Processes that are killed -/

/-- START with every call of Windows succeeding. -/
def runTunnel (port : SocksPort) (d : Desktop) : Desktop :=
  startTunnel true (.applies port true true true) d

/-- `WM_CREATE`, over the settings and the file that are there. -/
def wmCreate (registry : InternetSettings) (stateFile : Option (List Char)) : Desktop :=
  recoverStaleTonProxyIfNeeded true (launched registry stateFile)

/-- `WM_CREATE` of the next process, over the settings and the file that are left. -/
def relaunch (d : Desktop) : Desktop := wmCreate d.registry d.stateFile

/-- The tunnel running in the n-th process after the first, each of the earlier ones having
been killed while it ran. -/
def session (port : SocksPort) (registry : InternetSettings) (stateFile : Option (List Char)) :
    Nat → Desktop
  | 0 => runTunnel port (wmCreate registry stateFile)
  | n + 1 => runTunnel port (relaunch (session port registry stateFile n))

/-- After the n-th kill: the user's setting is in force once the next process has recovered,
or at the latest after its STOP, and is not the dead port; and what is on disk while that
process runs is not the tunnel's own proxy. -/
def GivenBackAfterKill (port : SocksPort) (registry : InternetSettings)
    (stateFile : Option (List Char)) (n : Nat) : Prop :=
  (∃ d ∈ [relaunch (session port registry stateFile n),
      stopCore true (session port registry stateFile (n + 1))],
    d.registry.effective = registry.effective ∧ d.registry.effective ≠ some (ownProxy port)) ∧
  (session port registry stateFile (n + 1)).stateFile ≠
    some (ProxyState.ofEffective (some (ownProxy port))).text

variable {d : Desktop} {registry : InternetSettings} {stateFile : Option (List Char)}

theorem runTunnel_eq (fresh : d.prevProxy.captured = false) :
    runTunnel port d =
      { d with
        registry := ownSettings port
        stateFile := some (ProxyState.ofEffective d.registry.effective).text
        prevProxy := .ofEffective d.registry.effective
        running := true } := by
  simp [runTunnel, startTunnel, stopCore, restoreSystemProxy, applySystemSocksProxy,
    captureSystemProxyState, ownSettings, fresh]

theorem wmCreate_fresh (registry : InternetSettings) (stateFile : Option (List Char)) :
    (wmCreate registry stateFile).prevProxy.captured = false := by
  unfold wmCreate recoverStaleTonProxyIfNeeded
  split
  · split <;> rfl
  · rfl

theorem relaunch_fresh (d : Desktop) : (relaunch d).prevProxy.captured = false :=
  wmCreate_fresh _ _

/-- A setting that looks like a leftover gives way to what can be read of the file. -/
theorem wmCreate_effective :
    (wmCreate registry stateFile).registry.effective =
      if registry.staleTonProxy = true then
        (loadProxyStateFromDisk stateFile).bind ProxyState.saved
      else registry.effective := by
  unfold wmCreate recoverStaleTonProxyIfNeeded launched
  by_cases stale : registry.staleTonProxy = true
  · rw [if_pos stale, if_pos ⟨rfl, stale⟩]
    cases loadProxyStateFromDisk stateFile with
    | none => exact dif_neg fun h => absurd h.1 (by decide : (0 : UInt32) ≠ 1)
    | some diskState => exact InternetSettings.effective_writeBack _ _
  · rw [if_neg stale, if_neg fun h => stale h.2]

/-- STOP puts back what the START of the same process found. -/
theorem stopCore_runTunnel (fresh : d.prevProxy.captured = false) :
    (stopCore true (runTunnel port d)).registry.effective = d.registry.effective := by
  rw [stopCore_effective (by simp [runTunnel_eq fresh]), runTunnel_eq fresh,
    ProxyState.saved_ofEffective]

/-- A port that is not recognised: the tunnel's own proxy stays in force, and the next
process takes it for the user's. -/
theorem relaunch_unrecognised (fresh : d.prevProxy.captured = false)
    (other : ¬ Recognised port) :
    (relaunch (runTunnel port d)).registry.effective = some (ownProxy port) := by
  rw [← staleTonProxy_ownSettings] at other
  rw [relaunch, runTunnel_eq fresh, wmCreate_effective, if_neg other, effective_ownSettings]

/-- What the file gives back of a setting. -/
def readBack (e : Option Proxy) : Option Proxy :=
  (loadProxyStateFromDisk (some (ProxyState.ofEffective e).text)).bind ProxyState.saved

/-- A port that is recognised: what can be read of the file is put back. -/
theorem relaunch_recognised (fresh : d.prevProxy.captured = false) (known : Recognised port) :
    (relaunch (runTunnel port d)).registry.effective = readBack d.registry.effective := by
  rw [← staleTonProxy_ownSettings] at known
  rw [relaunch, runTunnel_eq fresh, wmCreate_effective, if_pos known, readBack]

theorem oneLine_load (stateFile : Option (List Char)) :
    OneLine ((loadProxyStateFromDisk stateFile).bind ProxyState.saved) := by
  intro p mem
  obtain ⟨st, read, saved⟩ := Option.bind_eq_some_iff.mp mem
  exact load_oneLine read p saved

/-- A setting is given back if and only if it fits the lines of the file. -/
theorem readBack_eq_iff {e : Option Proxy} : readBack e = e ↔ OneLine e := by
  constructor
  · intro same
    rw [← same]
    exact oneLine_load _
  · intro oneLine
    rw [readBack, load_text oneLine, Option.bind_some, ProxyState.saved_ofEffective]

theorem oneLine_ownProxy : OneLine (some (ownProxy port)) := by
  rintro _ ⟨⟩
  constructor
  · change '\n' ∉ "socks=127.0.0.1:".toList ++ _
    have digits := notDigit_notMem_toDigits (c := '\n') (by decide) port.val
    simpa using digits
  · change '\n' ∉ "<local>".toList
    simp

/-- Two proxies that fit their lines are told apart by the file. -/
theorem text_injective {e e' : Option Proxy} (oneLine : OneLine e) (oneLine' : OneLine e')
    (same : (ProxyState.ofEffective e).text = (ProxyState.ofEffective e').text) : e = e' := by
  have read := load_text oneLine
  rw [same, load_text oneLine'] at read
  rw [← ProxyState.saved_ofEffective e, ← Option.some.inj read, ProxyState.saved_ofEffective]

theorem session_eq (port : SocksPort) (registry : InternetSettings)
    (stateFile : Option (List Char)) (n : Nat) :
    ∃ d, d.prevProxy.captured = false ∧ session port registry stateFile n = runTunnel port d := by
  cases n with
  | zero => exact ⟨wmCreate registry stateFile, wmCreate_fresh _ _, rfl⟩
  | succ n => exact ⟨relaunch (session port registry stateFile n), relaunch_fresh _, rfl⟩

/-- On a recognised port every process finds what the file gives back of the setting that the
first START found. -/
theorem session_finds (registry : InternetSettings) (stateFile : Option (List Char))
    (known : Recognised port) (n : Nat) :
    (relaunch (session port registry stateFile n)).registry.effective =
      readBack (wmCreate registry stateFile).registry.effective := by
  induction n with
  | zero => exact relaunch_recognised (wmCreate_fresh _ _) known
  | succ n ih =>
      rw [session, relaunch_recognised (relaunch_fresh _) known, ih]
      exact readBack_eq_iff.mpr (oneLine_load _)

/-- The first process leaves the user's setting alone: it does not look like a leftover of the
tunnel, or the file that is there says the same. -/
def Survives (registry : InternetSettings) (stateFile : Option (List Char)) : Prop :=
  registry.staleTonProxy = true →
    (loadProxyStateFromDisk stateFile).bind ProxyState.saved = registry.effective

/-- The first START finds the user's setting, and the file gives it back. -/
theorem readBack_wmCreate_iff :
    readBack (wmCreate registry stateFile).registry.effective = registry.effective ↔
      OneLine registry.effective ∧ Survives registry stateFile := by
  rw [wmCreate_effective]
  by_cases stale : registry.staleTonProxy = true
  · rw [if_pos stale, readBack_eq_iff.mpr (oneLine_load stateFile)]
    exact ⟨fun same => ⟨same ▸ oneLine_load stateFile, fun _ => same⟩, fun h => h.2 stale⟩
  · rw [if_neg stale, readBack_eq_iff]
    exact ⟨fun oneLine => ⟨oneLine, fun h => absurd h stale⟩, fun h => h.1⟩

/-- A proxy of the user's own on port 1080 looks like a leftover: the first process switches it
off, and none of the later ones finds it. -/
theorem users_1080_lost (n : Nat) :
    let registry : InternetSettings := ⟨1, "127.0.0.1:1080".toList, []⟩
    (wmCreate registry none).registry.effective = none ∧
      ¬ GivenBackAfterKill defaultPort registry none n := by
  intro registry
  have off : (wmCreate registry none).registry.effective = none := by decide +kernel
  have found : (relaunch (session defaultPort registry none n)).registry.effective = none := by
    rw [session_finds registry none (.inl rfl), off]
    decide +kernel
  have stopped : (stopCore true (session defaultPort registry none (n + 1))).registry.effective =
      none :=
    (stopCore_runTunnel (relaunch_fresh _)).trans found
  refine ⟨off, ?_⟩
  rintro ⟨⟨d, mem, same, -⟩, -⟩
  simp only [List.mem_cons, List.not_mem_nil, or_false] at mem
  have set : registry.effective ≠ none := by decide +kernel
  rcases mem with rfl | rfl
  · exact set (same.symm.trans found)
  · exact set (same.symm.trans stopped)

end TonTunnel.App
