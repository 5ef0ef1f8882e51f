import TonTunnel.Egress.Moves

/-!
What a step can do to the shared state, as far as ownership goes.

Most steps leave the stream table, the descriptors and the ownership fields of
all streams alone (`Quiet`; `Mild` if the per-client counts and the thread
handles are left alone too). Every other step does one of ten things, which
`Effect` lists together with the fact that entitles the thread to do it. A step
is reduced to its `Effect` once, in `Egress.Ownership`; what an effect keeps is
proved here once for each constructor.
-/

namespace TonTunnel.Egress

/-! ### Quiet and mild steps -/

/-- Same stream table, descriptors, history of closes and teardowns, and same
streams up to their activity stamps and thread handles. -/
structure Quiet (n n' : Node) : Prop where
  streams : n'.streams = n.streams
  nextRef : n'.nextRef = n.nextRef
  fds : n'.fds = n.fds
  nextSock : n'.nextSock = n.nextSock
  closes : n'.closes = n.closes
  teardowns : n'.teardowns = n.teardowns
  heap (r : Ref) : n'.heap r =
    { n.heap r with lastActivityMs := (n'.heap r).lastActivityMs, rxThread := (n'.heap r).rxThread }

/-- Also the same counts and thread handles. -/
structure Mild (n n' : Node) : Prop extends Quiet n n' where
  count (c : Bytes) : n'.count c = n.count c
  rxThread (r : Ref) : (n'.heap r).rxThread = (n.heap r).rxThread

namespace Quiet

variable {n n' n'' : Node}

theorem refl (n : Node) : Quiet n n := ⟨rfl, rfl, rfl, rfl, rfl, rfl, fun _ => rfl⟩

theorem trans (h : Quiet n n') (h' : Quiet n' n'') : Quiet n n'' := by
  refine ⟨h'.streams.trans h.streams, h'.nextRef.trans h.nextRef, h'.fds.trans h.fds,
    h'.nextSock.trans h.nextSock, h'.closes.trans h.closes, h'.teardowns.trans h.teardowns,
    fun r => ?_⟩
  conv_lhs => rw [h'.heap r, h.heap r]

theorem clientId (h : Quiet n n') (r : Ref) : (n'.heap r).clientId = (n.heap r).clientId := by
  rw [h.heap r]

theorem streamId (h : Quiet n n') (r : Ref) : (n'.heap r).streamId = (n.heap r).streamId := by
  rw [h.heap r]

theorem key (h : Quiet n n') (r : Ref) : (n'.heap r).key = (n.heap r).key := by
  rw [Stream.key, h.clientId, h.streamId, Stream.key]

theorem fd (h : Quiet n n') (r : Ref) : (n'.heap r).fd = (n.heap r).fd := by
  rw [h.heap r]

theorem closed (h : Quiet n n') (r : Ref) : (n'.heap r).closed = (n.heap r).closed := by
  rw [h.heap r]

theorem sock (h : Quiet n n') (r : Ref) : (n'.heap r).sock = (n.heap r).sock := by
  rw [h.heap r]

end Quiet

namespace Mild

variable {n n' n'' : Node}

theorem refl (n : Node) : Mild n n := ⟨.refl n, fun _ => rfl, fun _ => rfl⟩

theorem trans (h : Mild n n') (h' : Mild n' n'') : Mild n n'' :=
  ⟨h.toQuiet.trans h'.toQuiet, fun c => (h'.count c).trans (h.count c),
    fun r => (h'.rxThread r).trans (h.rxThread r)⟩

theorem emit (n : Node) (e : Event) : Mild n (n.emit e) :=
  ⟨⟨rfl, rfl, rfl, rfl, rfl, rfl, fun _ => rfl⟩, fun _ => rfl, fun _ => rfl⟩

theorem sendToClient (n : Node) (t : ThreadId) (client frame : Bytes) (ok : Bool) :
    Mild n (n.sendToClient t client frame ok) := emit n _

theorem touch (n : Node) (r : Ref) : Mild n (n.touch r) := by
  have heap (r' : Ref) : ∃ ms, (n.touch r).heap r' = { n.heap r' with lastActivityMs := ms } := by
    by_cases h : r' = r
    · subst h
      exact ⟨n.nowMs, by simp [Node.touch, Node.setStream]⟩
    · exact ⟨(n.heap r').lastActivityMs, by simp [Node.touch, Node.setStream, h]⟩
  refine ⟨⟨rfl, rfl, rfl, rfl, rfl, rfl, fun r' => ?_⟩, fun _ => rfl, fun r' => ?_⟩
  · obtain ⟨ms, hms⟩ := heap r'
    rw [hms]
  · obtain ⟨ms, hms⟩ := heap r'
    rw [hms]

theorem touchCount (n : Node) (client : Bytes) : Mild n (n.touchCount client) := by
  refine ⟨⟨rfl, rfl, rfl, rfl, rfl, rfl, fun _ => rfl⟩, fun c => ?_, fun _ => rfl⟩
  by_cases h : c = client
  · subst h
    simp [Node.touchCount, Node.count]
  · simp [Node.touchCount, Node.count, AList.lookup_insert_ne h]

theorem shutdownFd (n : Node) (fd : Int) : Mild n (n.shutdownFd fd) := by
  rcases n.shutdownFd_eq fd with same | ⟨k, shut⟩
  · rw [same]
    exact refl n
  · rw [shut]
    exact emit n _

theorem noteClosed (n : Node) (key : Bytes) : Mild n (n.noteClosed key) :=
  ⟨⟨rfl, rfl, rfl, rfl, rfl, rfl, fun _ => rfl⟩, fun _ => rfl, fun _ => rfl⟩

theorem noteSelect (n : Node) (ip : Bytes) (fd : Int) (ret : ConnectRet) :
    Mild n (noteSelect n ip fd ret) := by
  rcases noteSelect_eq n ip fd ret with same | waits
  · rw [same]
    exact refl n
  · rw [waits]
    exact emit n _

theorem rxLife (n : Node) (f : Ref → Life) : Mild n { n with rxLife := f } :=
  ⟨⟨rfl, rfl, rfl, rfl, rfl, rfl, fun _ => rfl⟩, fun _ => rfl, fun _ => rfl⟩

end Mild

theorem DataMove.mild {cfg : Config} {client : Bytes} {d : DataMessage} {pc : DataPc}
    {n n' : Node} {a : Act} {out : DataOut} (h : DataMove cfg client d n pc a out n') :
    Mild n n' := by
  cases h with
  | touch => exact .touch n _
  | tooLong | notFound | streamClosed => exact .sendToClient n ..
  | sendFails | sends => exact .emit n _
  | _ => exact .refl n

theorem RxMove.mild {r : Ref} {pc : RxPc} {n n' : Node} {a : Act} {l : Thread RxPc}
    (h : RxMove r n pc a l n') : Mild n n' := by
  cases h with
  | touch => exact .touch n _
  | push | pushFails => exact .sendToClient n ..
  | received => exact .emit n _
  | leave => exact .rxLife n _
  | _ => exact .refl n

theorem IdleMove.mild {cfg : Config} {pc : IdlePc} {n n' : Node} {a : Act} {l : Thread IdlePc}
    (h : IdleMove cfg n pc a l n') : Mild n n' := by
  cases h with
  | exit | scan =>
      exact ⟨⟨rfl, rfl, rfl, rfl, rfl, rfl, fun _ => rfl⟩, fun _ => rfl, fun _ => rfl⟩
  | _ => exact .refl n

/-! ### What holds of the shared state at any moment -/

/-- The stream's descriptor is open and names the socket made for the stream. -/
def Attached (n : Node) (r : Ref) : Prop :=
  0 ≤ (n.heap r).fd ∧ n.fds (n.heap r).fd = some (n.heap r).sock

/-- The stream is closed for good: its socket was closed, once. -/
def Torn (n : Node) (r : Ref) : Prop :=
  (n.heap r).closed = true ∧ (n.heap r).fd = -1 ∧ n.closes (n.heap r).sock = 1

/-- No stream was made for the socket. -/
def Unowned (n : Node) (k : Sock) : Prop :=
  ∀ r < n.nextRef, (n.heap r).sock ≠ k

/-- The ownership facts about the shared state. A stream in the table stands under
its own key, nobody has taken it, and it is not closed; a stream that is not
closed is attached; descriptors name distinct sockets that are still open, and
streams have distinct sockets. -/
structure Sound (n : Node) : Prop where
  key {k : Bytes} {r : Ref} : n.streams.lookup k = some r → k = (n.heap r).key
  bound {k : Bytes} {r : Ref} : n.streams.lookup k = some r → r < n.nextRef
  untaken {k : Bytes} {r : Ref} : n.streams.lookup k = some r → n.teardowns r = []
  unclosed {k : Bytes} {r : Ref} : n.streams.lookup k = some r → (n.heap r).closed = false
  attached {r : Ref} : r < n.nextRef → (n.heap r).closed = false → Attached n r
  fdOpen {f : Int} {k : Sock} : n.fds f = some k → 0 ≤ f ∧ k < n.nextSock ∧ n.closes k = 0
  fdInj {f f' : Int} {k : Sock} : n.fds f = some k → n.fds f' = some k → f = f'
  sockBound {r : Ref} : r < n.nextRef → (n.heap r).sock < n.nextSock
  sockInj {r r' : Ref} : r < n.nextRef → r' < n.nextRef → (n.heap r).sock = (n.heap r').sock →
    r = r'
  unborn {r : Ref} : n.nextRef ≤ r → n.teardowns r = []
  unused {k : Sock} : n.nextSock ≤ k → n.closes k = 0
  single (r : Ref) : n.teardowns r = [] ∨ ∃ t, n.teardowns r = [t]

theorem Sound.quiet {n n' : Node} (h : Quiet n n') (hn : Sound n) : Sound n' where
  key hk := by
    rw [h.streams] at hk
    rw [h.key]
    exact hn.key hk
  bound hk := by
    rw [h.streams] at hk
    rw [h.nextRef]
    exact hn.bound hk
  untaken hk := by
    rw [h.streams] at hk
    rw [h.teardowns]
    exact hn.untaken hk
  unclosed hk := by
    rw [h.streams] at hk
    rw [h.closed]
    exact hn.unclosed hk
  attached hr hc := by
    rw [h.nextRef] at hr
    rw [h.closed] at hc
    rw [Attached, h.fd, h.sock, h.fds]
    exact hn.attached hr hc
  fdOpen hf := by
    rw [h.fds] at hf
    rw [h.nextSock, h.closes]
    exact hn.fdOpen hf
  fdInj hf hf' := by
    rw [h.fds] at hf hf'
    exact hn.fdInj hf hf'
  sockBound hr := by
    rw [h.nextRef] at hr
    rw [h.sock, h.nextSock]
    exact hn.sockBound hr
  sockInj hr hr' hs := by
    rw [h.nextRef] at hr hr'
    rw [h.sock, h.sock] at hs
    exact hn.sockInj hr hr' hs
  unborn hr := by
    rw [h.nextRef] at hr
    rw [h.teardowns]
    exact hn.unborn hr
  unused hk := by
    rw [h.nextSock] at hk
    rw [h.closes]
    exact hn.unused hk
  single r := by
    rw [h.teardowns]
    exact hn.single r

/-! ### Effects -/

/-- What a step of thread `t` can do, with what entitles it. -/
inductive Effect (t : ThreadId) (n n' : Node) : Prop
  | quiet (then_ : Quiet n n')
  | openSocket {fd : Int} (msg : t = .msg) (nonneg : 0 ≤ fd) (free : n.fds fd = none)
      (then_ : Quiet (n.openSocket fd) n')
  | dropSocket {fd : Int} {k : Sock} (msg : t = .msg) (opened : n.fds fd = some k)
      (unowned : Unowned n k) (then_ : Quiet (n.closeFd fd) n')
  | makeStream {client : Bytes} {streamId : UInt32} {fd : Int} {k : Sock} (msg : t = .msg)
      (nonneg : 0 ≤ fd) (opened : n.fds fd = some k) (unowned : Unowned n k)
      (then_ : Quiet (n.makeStream client streamId fd k) n')
  | put {r : Ref} (msg : t = .msg) (bound : r < n.nextRef) (untaken : n.teardowns r = [])
      (unclosed : (n.heap r).closed = false) (then_ : Quiet (n.putStream (n.heap r).key r) n')
  | take {k : Bytes} {r : Ref} (found : n.streams.lookup k = some r)
      (then_ : Quiet { n with streams := n.streams.erase k,
                              teardowns := Function.update n.teardowns r (n.teardowns r ++ [t]) } n')
  | lose {k : Bytes} (then_ : Quiet { n with streams := n.streams.erase k } n')
  | takeAll {refs : List Ref} (main : t = .main) (all : refs.Perm n.refs)
      (then_ : Quiet (n.takeAll t refs) n')
  | flag {r : Ref} (mine : n.teardowns r = [t])
      (then_ : Quiet (n.setStream r fun s => { s with closed := true }) n')
  | closeFd {r : Ref} (mine : n.teardowns r = [t]) (closed : (n.heap r).closed = true)
      (attached : Attached n r) (then_ : Quiet (n.closeFd (n.heap r).fd) n')
  | clearFd {r : Ref} (mine : n.teardowns r = [t]) (closed : (n.heap r).closed = true)
      (then_ : Quiet (n.setStream r fun s => { s with fd := -1 }) n')

/-! ### Every effect keeps the facts -/

theorem Node.closeFd_of_open {n : Node} {fd : Int} {k : Sock} (h : n.fds fd = some k) :
    n.closeFd fd = { n with fds := Function.update n.fds fd none,
                            closes := Function.update n.closes k (n.closes k + 1) } := by
  simp [Node.closeFd, h]

theorem Node.mem_refs {n : Node} {r : Ref} : r ∈ n.refs ↔ ∃ k, n.streams.lookup k = some r := by
  simp only [Node.refs, List.mem_map]
  constructor
  · rintro ⟨⟨k, r'⟩, hmem, rfl⟩
    exact ⟨k, AList.mem_lookup_iff.mpr hmem⟩
  · rintro ⟨k, hk⟩
    exact ⟨⟨k, r⟩, AList.mem_lookup_iff.mp hk, rfl⟩

/-- The section of `closeStream`, apart from the count it stores. -/
theorem Node.take_eq (n : Node) (t : ThreadId) (c : CloseCall) (r : Ref) :
    ∃ counts, n.take t c r = { n with
      streams := n.streams.erase (keyFor c.clientId c.streamId)
      recentlyClosedMs := n.recentlyClosedMs.insert (keyFor c.clientId c.streamId) n.nowMs
      streamsPerClient := counts
      teardowns := Function.update n.teardowns r (n.teardowns r ++ [t])
      log := n.log ++ [Event.taken t (some c) r] } := by
  unfold Node.take Node.dropCount
  dsimp only
  split
  · exact ⟨_, rfl⟩
  · split
    · exact ⟨_, rfl⟩
    · exact ⟨_, rfl⟩

theorem lookup_erase_some {k k' : Bytes} {r : Ref} {m : AList fun _ : Bytes => Ref}
    (h : (m.erase k).lookup k' = some r) : k' ≠ k ∧ m.lookup k' = some r := by
  by_cases hk : k' = k
  · subst hk
    simp at h
  · exact ⟨hk, by rwa [AList.lookup_erase_ne hk] at h⟩

theorem lookup_insert_some {k k' : Bytes} {r r' : Ref} {m : AList fun _ : Bytes => Ref}
    (h : (m.insert k r).lookup k' = some r') : (k' = k ∧ r' = r) ∨ m.lookup k' = some r' := by
  by_cases hk : k' = k
  · subst hk
    simp only [AList.lookup_insert, Option.some.injEq] at h
    exact .inl ⟨rfl, h.symm⟩
  · exact .inr (by rwa [AList.lookup_insert_ne hk] at h)

namespace Sound

variable {n : Node} {t : ThreadId} {r : Ref} {fd : Int} {k : Sock}

theorem openSocket (hn : Sound n) (nonneg : 0 ≤ fd) (free : n.fds fd = none) :
    Sound (n.openSocket fd) := by
  unfold Node.openSocket
  refine ⟨hn.key, hn.bound, hn.untaken, hn.unclosed, fun {r} hr hc => ?_, fun {f k} hf => ?_,
    fun {f f' k} hf hf' => ?_, fun hr => Nat.lt_succ_of_lt (hn.sockBound hr), hn.sockInj,
    hn.unborn, fun hk => hn.unused (Nat.le_of_succ_le hk), hn.single⟩
  · have := hn.attached hr hc
    grind [Attached]
  · have := @hn.fdOpen f k
    have := @hn.unused n.nextSock
    grind
  · have := @hn.fdInj f f' k
    have := @hn.fdOpen f k
    have := @hn.fdOpen f' k
    grind

/-- Closing a socket keeps the facts if the only stream it may belong to is closed. -/
theorem closeFd (hn : Sound n) (opened : n.fds fd = some k)
    (owner : ∀ r < n.nextRef, (n.heap r).sock = k → (n.heap r).closed = true) :
    Sound (n.closeFd fd) := by
  rw [Node.closeFd_of_open opened]
  refine ⟨hn.key, hn.bound, hn.untaken, hn.unclosed, fun {r} hr hc => ?_, fun {f k'} hf => ?_,
    fun {f f' k'} hf hf' => ?_, hn.sockBound, hn.sockInj, hn.unborn, fun {k'} hk => ?_, hn.single⟩
  · have := hn.attached hr hc
    have := owner r hr
    grind [Attached]
  · have := @hn.fdOpen f k'
    have := @hn.fdInj f fd k'
    grind
  · have := @hn.fdInj f f' k'
    grind
  · have := hn.unused hk
    have := hn.fdOpen opened
    grind

theorem makeStream {client : Bytes} {streamId : UInt32} (hn : Sound n) (nonneg : 0 ≤ fd)
    (opened : n.fds fd = some k) (unowned : Unowned n k) :
    Sound (n.makeStream client streamId fd k) := by
  -- the new stream's address is not in the table
  have old {key : Bytes} {r : Ref} (h : n.streams.lookup key = some r) : r ≠ n.nextRef :=
    Nat.ne_of_lt (hn.bound h)
  unfold Node.makeStream
  refine ⟨fun {key r} h => ?_, fun h => Nat.lt_succ_of_lt (hn.bound h), hn.untaken,
    fun {key r} h => ?_, fun {r} hr hc => ?_, hn.fdOpen, hn.fdInj, fun {r} hr => ?_,
    fun {r r'} hr hr' hs => ?_, fun hr => hn.unborn (Nat.le_of_succ_le hr), hn.unused, hn.single⟩
  · have := hn.key h
    have := old h
    grind
  · have := hn.unclosed h
    have := old h
    grind
  · have := @hn.attached r
    grind [Attached]
  · have := @hn.sockBound r
    have := hn.fdOpen opened
    grind
  · have := @hn.sockInj r r'
    have := unowned r
    have := unowned r'
    grind

theorem putStream (hn : Sound n) (bound : r < n.nextRef) (untaken : n.teardowns r = [])
    (unclosed : (n.heap r).closed = false) : Sound (n.putStream (n.heap r).key r) := by
  refine ⟨fun h => ?_, fun h => ?_, fun h => ?_, fun h => ?_, hn.attached, hn.fdOpen, hn.fdInj,
    hn.sockBound, hn.sockInj, hn.unborn, hn.unused, hn.single⟩
  all_goals
    rcases lookup_insert_some h with ⟨rfl, rfl⟩ | h
  · rfl
  · exact hn.key h
  · exact bound
  · exact hn.bound h
  · exact untaken
  · exact hn.untaken h
  · exact unclosed
  · exact hn.unclosed h

/-- An entry leaves the table, and nothing else changes. -/
theorem erase (hn : Sound n) (key : Bytes) : Sound { n with streams := n.streams.erase key } where
  key h := hn.key (lookup_erase_some h).2
  bound h := hn.bound (lookup_erase_some h).2
  untaken h := hn.untaken (lookup_erase_some h).2
  unclosed h := hn.unclosed (lookup_erase_some h).2
  attached := hn.attached
  fdOpen := hn.fdOpen
  fdInj := hn.fdInj
  sockBound := hn.sockBound
  sockInj := hn.sockInj
  unborn := hn.unborn
  unused := hn.unused
  single := hn.single

/-- A key is mapped to one stream and a stream stands under one key. -/
theorem lookup_inj (hn : Sound n) {key key' : Bytes} (h : n.streams.lookup key = some r)
    (h' : n.streams.lookup key' = some r) : key = key' :=
  (hn.key h).trans (hn.key h').symm

/-- No stream stands in the table twice. -/
theorem nodup_refs (hn : Sound n) : n.refs.Nodup := by
  refine List.Nodup.map_on ?_ n.streams.nodupKeys.nodup
  rintro ⟨key, r⟩ h ⟨key', r'⟩ h' (rfl : r = r')
  obtain rfl := hn.lookup_inj (AList.mem_lookup_iff.mpr h) (AList.mem_lookup_iff.mpr h')
  rfl

theorem take {key : Bytes} (hn : Sound n) (found : n.streams.lookup key = some r) :
    Sound { n with streams := n.streams.erase key,
                   teardowns := Function.update n.teardowns r (n.teardowns r ++ [t]) } := by
  refine ⟨fun h => hn.key (lookup_erase_some h).2, fun h => hn.bound (lookup_erase_some h).2,
    fun {key' r'} h => ?_, fun h => hn.unclosed (lookup_erase_some h).2, hn.attached, hn.fdOpen,
    hn.fdInj, hn.sockBound, hn.sockInj, fun {r'} hr => ?_, hn.unused, fun r' => ?_⟩
  · obtain ⟨hne, hold⟩ := lookup_erase_some h
    have hr : r' ≠ r := by
      rintro rfl
      exact hne (hn.lookup_inj hold found)
    simpa [hr] using hn.untaken hold
  · have hr' : r' ≠ r := Nat.ne_of_gt (Nat.lt_of_lt_of_le (hn.bound found) hr)
    simpa [hr'] using hn.unborn hr
  · by_cases hr : r' = r
    · subst hr
      exact .inr ⟨t, by simp [hn.untaken found]⟩
    · simpa [hr] using hn.single r'

theorem takeAll {refs : List Ref} (hn : Sound n) (all : refs.Perm n.refs) :
    Sound (n.takeAll t refs) := by
  have mem {r : Ref} : r ∈ refs ↔ ∃ key, n.streams.lookup key = some r :=
    all.mem_iff.trans Node.mem_refs
  unfold Node.takeAll
  refine ⟨fun h => ?_, fun h => ?_, fun h => ?_, fun h => ?_, hn.attached, hn.fdOpen, hn.fdInj,
    hn.sockBound, hn.sockInj, fun {r} hr => ?_, hn.unused, fun r => ?_⟩
  · simp at h
  · simp at h
  · simp at h
  · simp at h
  · have hout : r ∉ refs := fun hin => by
      obtain ⟨key, h⟩ := mem.mp hin
      exact absurd (hn.bound h) (Nat.not_lt_of_le hr)
    simpa [hout] using hn.unborn hr
  · by_cases hin : r ∈ refs
    · obtain ⟨key, h⟩ := mem.mp hin
      exact .inr ⟨t, by simp [hin, hn.untaken h]⟩
    · simpa [hin] using hn.single r

/-- Writing `closed` or, on a closed stream, `fd`: only a taken stream is written to. -/
theorem setStream {f : Stream → Stream} (hn : Sound n) (taken : n.teardowns r ≠ [])
    (ident : ∀ s, (f s).clientId = s.clientId ∧ (f s).streamId = s.streamId ∧ (f s).sock = s.sock)
    (closes : (f (n.heap r)).closed = true) : Sound (n.setStream r f) := by
  have other {key : Bytes} {r' : Ref} (h : n.streams.lookup key = some r') : r' ≠ r := by
    rintro rfl
    exact taken (hn.untaken h)
  have hsock (r' : Ref) : ((n.setStream r f).heap r').sock = (n.heap r').sock := by
    by_cases hr : r' = r
    · subst hr
      simpa [Node.setStream] using (ident _).2.2
    · simp [Node.setStream, hr]
  refine ⟨fun {key r'} h => ?_, hn.bound, hn.untaken, fun {key r'} h => ?_, fun {r'} hr hc => ?_,
    hn.fdOpen, hn.fdInj, fun {r'} hr => ?_, fun {r' r''} hr hr' hs => ?_, hn.unborn, hn.unused,
    hn.single⟩
  · simpa [Node.setStream, other h] using hn.key h
  · simpa [Node.setStream, other h] using hn.unclosed h
  · have hne : r' ≠ r := by
      rintro rfl
      simp [Node.setStream, closes] at hc
    simp only [Node.setStream, Function.update_of_ne hne] at hc
    simpa [Attached, Node.setStream, hne] using hn.attached hr hc
  · rw [hsock]
    exact hn.sockBound hr
  · rw [hsock, hsock] at hs
    exact hn.sockInj hr hr' hs

/-- **Every effect keeps the ownership facts.** -/
theorem effect {n' : Node} (hn : Sound n) (e : Effect t n n') : Sound n' := by
  cases e with
  | quiet then_ => exact hn.quiet then_
  | openSocket _ nonneg free then_ => exact (hn.openSocket nonneg free).quiet then_
  | dropSocket _ opened unowned then_ =>
      exact (hn.closeFd opened fun r hr hk => absurd hk (unowned r hr)).quiet then_
  | makeStream _ nonneg opened unowned then_ =>
      exact (hn.makeStream nonneg opened unowned).quiet then_
  | put _ bound untaken unclosed then_ => exact (hn.putStream bound untaken unclosed).quiet then_
  | take found then_ => exact (hn.take found).quiet then_
  | lose then_ => exact (hn.erase _).quiet then_
  | takeAll _ all then_ => exact (hn.takeAll all).quiet then_
  | flag mine then_ =>
      refine Sound.quiet then_ (hn.setStream ?_ (fun _ => ⟨rfl, rfl, rfl⟩) rfl)
      simp [mine]
  | @closeFd r mine closed attached then_ =>
      refine (hn.closeFd attached.2 fun r' hr hk => ?_).quiet then_
      have hbound : r < n.nextRef := by
        by_contra hge
        simp [hn.unborn (Nat.le_of_not_lt hge)] at mine
      rwa [hn.sockInj hr hbound hk]
  | clearFd mine closed then_ =>
      refine Sound.quiet then_ (hn.setStream ?_ (fun _ => ⟨rfl, rfl, rfl⟩) closed)
      simp [mine]

end Sound

/-! ### What an effect leaves alone -/

/-- The ownership fields of stream `r`, and its socket, are as they were. -/
structure Kept (n n' : Node) (r : Ref) : Prop where
  clientId : (n'.heap r).clientId = (n.heap r).clientId
  streamId : (n'.heap r).streamId = (n.heap r).streamId
  sock : (n'.heap r).sock = (n.heap r).sock
  closed : (n'.heap r).closed = (n.heap r).closed
  fd : (n'.heap r).fd = (n.heap r).fd
  closes : n'.closes (n.heap r).sock = n.closes (n.heap r).sock
  attached : Attached n r → Attached n' r

namespace Kept

variable {n n' n'' : Node} {r : Ref}

theorem quiet (h : Quiet n n') : Kept n n' r := by
  refine ⟨h.clientId r, h.streamId r, h.sock r, h.closed r, h.fd r, ?_, fun ha => ?_⟩
  · rw [h.closes]
  · rwa [Attached, h.fd, h.sock, h.fds]

theorem trans (h : Kept n n' r) (h' : Kept n' n'' r) : Kept n n'' r := by
  refine ⟨h'.clientId.trans h.clientId, h'.streamId.trans h.streamId, h'.sock.trans h.sock,
    h'.closed.trans h.closed, h'.fd.trans h.fd, ?_, fun ha => h'.attached (h.attached ha)⟩
  have := h'.closes
  rw [h.sock] at this
  exact this.trans h.closes

theorem after (q : Quiet n' n'') (h : Kept n n' r) : Kept n n'' r := h.trans (.quiet q)

theorem torn (h : Kept n n' r) (ht : Torn n r) : Torn n' r := by
  rw [Torn, h.closed, h.fd, h.sock, h.closes]
  exact ht

/-- Closing a descriptor keeps every stream with another socket. -/
theorem closeFd {fd : Int} {k : Sock} (hopen : n.fds fd = some k) (hne : (n.heap r).sock ≠ k) :
    Kept n (n.closeFd fd) r := by
  rw [Node.closeFd_of_open hopen]
  refine ⟨rfl, rfl, rfl, rfl, rfl, by simp [hne], fun ha => ⟨ha.1, ?_⟩⟩
  have hfd : (n.heap r).fd ≠ fd := fun h => hne (by
    have := ha.2
    rw [h, hopen] at this
    exact (Option.some.inj this).symm)
  simpa [hfd] using ha.2

theorem setStream {r' : Ref} {f : Stream → Stream} (hne : r ≠ r') : Kept n (n.setStream r' f) r := by
  have hheap : (n.setStream r' f).heap r = n.heap r := by simp [Node.setStream, hne]
  refine ⟨by rw [hheap], by rw [hheap], by rw [hheap], by rw [hheap], by rw [hheap], rfl,
    fun ha => ?_⟩
  rw [Attached, hheap]
  exact ha

end Kept

section Frame

variable {t t' : ThreadId} {n n' : Node} {r : Ref}

/-- The heap only grows, and a stream keeps its identity. -/
theorem Effect.ident (e : Effect t n n') (hr : r < n.nextRef) :
    r < n'.nextRef ∧ (n'.heap r).clientId = (n.heap r).clientId ∧
      (n'.heap r).streamId = (n.heap r).streamId ∧ (n'.heap r).sock = (n.heap r).sock := by
  have set {r' : Ref} {f : Stream → Stream} (hf : ∀ s, (f s).clientId = s.clientId ∧
      (f s).streamId = s.streamId ∧ (f s).sock = s.sock) :
      ((n.setStream r' f).heap r).clientId = (n.heap r).clientId ∧
        ((n.setStream r' f).heap r).streamId = (n.heap r).streamId ∧
        ((n.setStream r' f).heap r).sock = (n.heap r).sock := by
    by_cases h : r = r'
    · subst h
      simpa [Node.setStream] using hf _
    · simp [Node.setStream, h]
  cases e with
  | quiet q => exact ⟨q.nextRef ▸ hr, q.clientId r, q.streamId r, q.sock r⟩
  | openSocket _ _ _ q => exact ⟨q.nextRef ▸ hr, q.clientId r, q.streamId r, q.sock r⟩
  | dropSocket _ opened _ q =>
      rw [Node.closeFd_of_open opened] at q
      exact ⟨q.nextRef ▸ hr, q.clientId r, q.streamId r, q.sock r⟩
  | makeStream _ _ _ _ q =>
      have hne : r ≠ n.nextRef := Nat.ne_of_lt hr
      have heap : (n'.heap r).clientId = (n.heap r).clientId ∧
          (n'.heap r).streamId = (n.heap r).streamId ∧ (n'.heap r).sock = (n.heap r).sock := by
        rw [q.clientId, q.streamId, q.sock]
        simp [Node.makeStream, hne]
      exact ⟨q.nextRef ▸ Nat.lt_succ_of_lt hr, heap⟩
  | put _ _ _ _ q => exact ⟨q.nextRef ▸ hr, q.clientId r, q.streamId r, q.sock r⟩
  | take _ q => exact ⟨q.nextRef ▸ hr, q.clientId r, q.streamId r, q.sock r⟩
  | lose q => exact ⟨q.nextRef ▸ hr, q.clientId r, q.streamId r, q.sock r⟩
  | takeAll _ _ q => exact ⟨q.nextRef ▸ hr, q.clientId r, q.streamId r, q.sock r⟩
  | flag _ q =>
      rw [q.nextRef, q.clientId, q.streamId, q.sock]
      exact ⟨hr, set fun _ => ⟨rfl, rfl, rfl⟩⟩
  | closeFd _ _ attached q =>
      rw [Node.closeFd_of_open attached.2] at q
      exact ⟨q.nextRef ▸ hr, q.clientId r, q.streamId r, q.sock r⟩
  | clearFd _ _ q =>
      rw [q.nextRef, q.clientId, q.streamId, q.sock]
      exact ⟨hr, set fun _ => ⟨rfl, rfl, rfl⟩⟩

/-- A teardown makes no stream and starts no thread. -/
theorem TearMove.frame {call : Option CloseCall} {p : TearPc} {a : Act} {out : TearOut}
    (m : TearMove t call r n p a out n') : n'.nextRef = n.nextRef ∧ n'.rxLife = n.rxLife := by
  cases m with
  | shutdown =>
      rcases n.shutdownFd_eq (n.heap r).fd with same | ⟨k, shut⟩
      · rw [same]
        exact ⟨rfl, rfl⟩
      · rw [shut]
        exact ⟨rfl, rfl⟩
  | close =>
      obtain ⟨fds, closes, h⟩ := n.closeFd_eq (n.heap r).fd
      rw [h]
      exact ⟨rfl, rfl⟩
  | _ => exact ⟨rfl, rfl⟩

theorem CloseMove.frame {c : CloseCall} {pc : ClosePc} {a : Act} {out : CloseOut}
    (m : CloseMove t c n pc a out n') : n'.nextRef = n.nextRef ∧ n'.rxLife = n.rxLife := by
  cases m with
  | @take r =>
      obtain ⟨counts, htake⟩ := Node.take_eq n t c r
      rw [htake]
      exact ⟨rfl, rfl⟩
  | tear move | finish move => exact move.frame
  | absent | throws | lose => exact ⟨rfl, rfl⟩

/-- Who took a stream changes only from nobody to the thread that moves, and only
for a stream in the table. -/
theorem Effect.teardowns (hn : Sound n) (e : Effect t n n') (r : Ref) :
    n'.teardowns r = n.teardowns r ∨
      (n.teardowns r = [] ∧ n'.teardowns r = [t] ∧ ∃ k, n.streams.lookup k = some r) := by
  cases e with
  | quiet q => exact .inl (by rw [q.teardowns])
  | openSocket _ _ _ q => exact .inl (by rw [q.teardowns, Node.openSocket])
  | dropSocket _ opened _ q =>
      rw [Node.closeFd_of_open opened] at q
      exact .inl (by rw [q.teardowns])
  | makeStream _ _ _ _ q => exact .inl (by rw [q.teardowns, Node.makeStream])
  | put _ _ _ _ q => exact .inl (by rw [q.teardowns, Node.putStream, Node.emit])
  | @take _ r' found q =>
      rw [q.teardowns]
      by_cases h : r = r'
      · subst h
        exact .inr ⟨hn.untaken found, by simp [hn.untaken found], _, found⟩
      · exact .inl (by simp [h])
  | lose q => exact .inl (by rw [q.teardowns])
  | @takeAll refs _ all q =>
      rw [q.teardowns]
      by_cases h : r ∈ refs
      · obtain ⟨key, found⟩ := Node.mem_refs.mp (all.mem_iff.mp h)
        exact .inr ⟨hn.untaken found, by simp [Node.takeAll, h, hn.untaken found], key, found⟩
      · exact .inl (by simp [Node.takeAll, h])
  | flag _ q => exact .inl (by rw [q.teardowns, Node.setStream])
  | closeFd _ _ attached q =>
      rw [Node.closeFd_of_open attached.2] at q
      exact .inl (by rw [q.teardowns])
  | clearFd _ _ q => exact .inl (by rw [q.teardowns, Node.setStream])

/-- A stream that was taken stays taken. -/
theorem Effect.still_taken (hn : Sound n) (e : Effect t n n') (h : n.teardowns r ≠ []) :
    n'.teardowns r ≠ [] := by
  rcases e.teardowns hn r with same | ⟨none_, -⟩
  · rwa [same]
  · exact absurd none_ h

theorem Sound.bound_of_taken (hn : Sound n) (h : n.teardowns r ≠ []) : r < n.nextRef := by
  by_contra hge
  exact h (hn.unborn (Nat.le_of_not_lt hge))

/-- A step keeps a stream, or the stream is its own to tear down; then a stream
that is torn stays so. -/
theorem Effect.kept_or_mine (hn : Sound n) (e : Effect t n n') (hr : r < n.nextRef) :
    Kept n n' r ∨ (n.teardowns r = [t] ∧ (Torn n r → Torn n' r)) := by
  cases e with
  | quiet q => exact .inl (.quiet q)
  | @openSocket fd _ _ free q =>
      refine .inl (.after q ⟨rfl, rfl, rfl, rfl, rfl, rfl, fun ha => ?_⟩)
      have hfd : (n.heap r).fd ≠ fd := fun h => by
        have := ha.2
        rw [h, free] at this
        cases this
      exact ⟨ha.1, by simpa [Node.openSocket, hfd] using ha.2⟩
  | dropSocket _ opened unowned q => exact .inl (.after q (.closeFd opened (unowned r hr)))
  | makeStream _ _ _ _ q =>
      have hne : r ≠ n.nextRef := Nat.ne_of_lt hr
      refine .inl (.after q ⟨?_, ?_, ?_, ?_, ?_, rfl, fun ha => ?_⟩)
      all_goals simp only [Attached, Node.makeStream, Function.update_of_ne hne]
      exact ha
  | put _ _ _ _ q => exact .inl (.after q ⟨rfl, rfl, rfl, rfl, rfl, rfl, id⟩)
  | take _ q => exact .inl (.after q ⟨rfl, rfl, rfl, rfl, rfl, rfl, id⟩)
  | lose q => exact .inl (.after q ⟨rfl, rfl, rfl, rfl, rfl, rfl, id⟩)
  | takeAll _ _ q => exact .inl (.after q ⟨rfl, rfl, rfl, rfl, rfl, rfl, id⟩)
  | @flag r' mine q =>
      by_cases hne : r = r'
      · subst hne
        refine .inr ⟨mine, fun ht => (Kept.quiet q).torn ?_⟩
        simpa [Torn, Node.setStream] using ht.2
      · exact .inl (.after q (.setStream hne))
  | @closeFd r' mine _ attached q =>
      have hbound := hn.bound_of_taken (by simp [mine] : n.teardowns r' ≠ [])
      by_cases hne : r = r'
      · subst hne
        refine .inr ⟨mine, fun ht => absurd attached.1 ?_⟩
        simp [ht.2.1]
      · exact .inl (.after q (.closeFd attached.2 fun h => hne (hn.sockInj hr hbound h)))
  | @clearFd r' mine _ q =>
      by_cases hne : r = r'
      · subst hne
        refine .inr ⟨mine, fun ht => (Kept.quiet q).torn ?_⟩
        simpa [Torn, Node.setStream] using ⟨ht.1, ht.2.2⟩
      · exact .inl (.after q (.setStream hne))

/-- A thread does not touch a stream that is not its own to tear down. -/
theorem Effect.kept (hn : Sound n) (e : Effect t n n') (hr : r < n.nextRef)
    (other : n.teardowns r ≠ [t]) : Kept n n' r := by
  rcases e.kept_or_mine hn hr with hk | ⟨mine, _⟩
  · exact hk
  · exact absurd mine other

/-- What is torn stays torn. -/
theorem Effect.torn (hn : Sound n) (e : Effect t n n') (hr : r < n.nextRef) (ht : Torn n r) :
    Torn n' r := by
  rcases e.kept_or_mine hn hr with hk | ⟨_, keeps⟩
  · exact hk.torn ht
  · exact keeps ht

/-- Threads other than the message thread open nothing and register nothing. -/
theorem Effect.shrinks (hn : Sound n) (e : Effect t n n') (hmsg : t ≠ .msg) :
    n'.nextRef = n.nextRef ∧
      (∀ f, n'.fds f = n.fds f ∨ n'.fds f = none ∧ ∃ r < n.nextRef, n.fds f = some (n.heap r).sock) ∧
      (∀ k r, n'.streams.lookup k = some r → n.streams.lookup k = some r) ∧
      (∀ r, (n'.heap r).fd = (n.heap r).fd ∨ (n'.heap r).fd = -1) := by
  have set {r' : Ref} {f : Stream → Stream} (hf : ∀ s, (f s).fd = s.fd ∨ (f s).fd = -1) (r : Ref) :
      ((n.setStream r' f).heap r).fd = (n.heap r).fd ∨ ((n.setStream r' f).heap r).fd = -1 := by
    by_cases h : r = r'
    · subst h
      simpa [Node.setStream] using hf _
    · simp [Node.setStream, h]
  cases e with
  | openSocket msg | dropSocket msg | makeStream msg | put msg => exact absurd msg hmsg
  | quiet q =>
      exact ⟨q.nextRef, fun f => .inl (by rw [q.fds]), fun k r h => by rwa [q.streams] at h,
        fun r => .inl (q.fd r)⟩
  | take _ q | lose q =>
      exact ⟨q.nextRef, fun f => .inl (by rw [q.fds]),
        fun k r h => (lookup_erase_some (by rwa [q.streams] at h)).2, fun r => .inl (q.fd r)⟩
  | takeAll _ _ q =>
      refine ⟨q.nextRef, fun f => .inl (by rw [q.fds, Node.takeAll]), fun k r h => ?_,
        fun r => .inl (q.fd r)⟩
      rw [q.streams] at h
      simp [Node.takeAll] at h
  | flag _ q =>
      refine ⟨q.nextRef, fun f => .inl (by rw [q.fds, Node.setStream]),
        fun k r h => by rwa [q.streams] at h, fun r => ?_⟩
      rw [q.fd]
      refine set ?_ r
      exact fun _ => .inl rfl
  | @closeFd r' mine _ attached q =>
      have hbound := hn.bound_of_taken (by simp [mine] : n.teardowns r' ≠ [])
      rw [Node.closeFd_of_open attached.2] at q
      refine ⟨q.nextRef, fun f => ?_, fun k r h => by rwa [q.streams] at h, fun r => .inl (q.fd r)⟩
      rw [q.fds]
      by_cases hf : f = (n.heap r').fd
      · subst hf
        exact .inr ⟨by simp, r', hbound, attached.2⟩
      · exact .inl (by simp [hf])
  | clearFd _ _ q =>
      refine ⟨q.nextRef, fun f => .inl (by rw [q.fds, Node.setStream]),
        fun k r h => by rwa [q.streams] at h, fun r => ?_⟩
      rw [q.fd]
      refine set ?_ r
      exact fun _ => .inr rfl

end Frame

end TonTunnel.Egress
