import TonTunnel.Protocol.Server
import TonTunnel.Lib.Utf16

/-!
The response to a DNS query over HTTPS: `performDohQueryViaProtectedSocket` of the Android
client.

Of the socket only the stream behind the request is left: the bytes that arrive before the
peer closes it (`closes`, where `read` returns -1) or before `read` throws, and how many
bytes each `read` into an array returns (`chunks`, cut down to what `read` may return).
Setting up the socket and writing the request are not modelled.

The three readers hand the stream on at the right byte: the header reader stops behind the
first empty line (`readHttpHeaders_eq`), the line parser sees the lines before it
(`parseContentLength_eq_some_iff`), and the exact reader returns the bytes behind it, however
they arrive (`readExactLoop_eq`). So a body is returned exactly for a framed response
(`response_framed_iff`).
-/

namespace TonTunnel.Doh

open TonTunnel Find Utf16
open WhiteSpace (trim)

/-- `IOException`, a time-out included. -/
inductive Thrown where
  | io
  deriving DecidableEq, Repr

def maxHttpHeaderBytes : Nat := 8192

def dnsMaxPacketSize : Nat := 512

/-- The line end and the empty line that ends the headers. -/
def crlf : Text := [13, 10]

def emptyLine : Bytes := [13, 10, 13, 10]

section Readers

variable (closes : Bool)

/-- What a `read` at the end of the stream comes to: -1, and then `return null`. -/
def atEnd {α : Type} : Except Thrown (Option α) :=
  if closes then .ok none else .error .io

/-- The last four bytes of `buffer`. -/
def endsHeaders (buffer : Bytes) : Bool :=
  let count := buffer.length
  count ≥ 4 && buffer[count - 4]? = some 13 && buffer[count - 3]? = some 10 &&
    buffer[count - 2]? = some 13 && buffer[count - 1]? = some 10

/-- The loop of `readHttpHeaders`, with the bytes read so far and the ones to come. The
second result is what is left of the stream. -/
def readHttpHeadersLoop (buffer : Bytes) (input : Bytes) :
    Except Thrown (Option (Bytes × Bytes)) :=
  if buffer.length < maxHttpHeaderBytes then
    match input with
    | [] => atEnd closes
    | read :: input =>
        let buffer := buffer ++ [read]
        if endsHeaders buffer then .ok (some (buffer, input))
        else readHttpHeadersLoop buffer input
  else .ok none

def readHttpHeaders (input : Bytes) : Except Thrown (Option (Bytes × Bytes)) :=
  readHttpHeadersLoop closes [] input

/-- `toString(Charsets.US_ASCII)`: a byte beyond ASCII is the replacement character. -/
def asciiText (bytes : Bytes) : Text :=
  bytes.map fun b => if b < 128 then b.toUInt16 else 0xFFFD

/-- The number in a header line. The text has no digits beyond ASCII. -/
def lengthIn (line : Text) : Option Int :=
  -- `line.substringAfter(':')`
  let value := match cut [58] line with
    | some (_, after) => after
    | none => line
  toIntOrNull (fun _ => none) (trim isWhitespace value)

def isContentLength (line : Text) : Bool :=
  startsWithIgnoreCase line (units "Content-Length:")

def parseContentLength (headerText : Text) : Option Int :=
  match (split crlf headerText).find? isContentLength with
  | some line => lengthIn line
  | none => none

variable (chunks : Nat → Nat)

/-- The loop of `readExactBytes`, with the bytes of `out` that are filled. The call number
`calls` of `read` returns as many bytes as `chunks` says, at least one and no more than
were asked for and are there. -/
def readExactLoop (length calls : Nat) (out input : Bytes) : Except Thrown (Option Bytes) :=
  if out.length < length then
    if input = [] then atEnd closes
    else
      let read := max 1 (min (chunks calls) (min (length - out.length) input.length))
      readExactLoop length (calls + 1) (out ++ input.take read) (input.drop read)
  else .ok (some out)
termination_by length - out.length
decreasing_by
  have := List.length_pos_of_ne_nil ‹input ≠ []›
  rw [List.length_append, List.length_take]
  omega

def readExactBytes (input : Bytes) (length : Int) : Except Thrown (Option Bytes) :=
  if length ≤ 0 ∨ length > dnsMaxPacketSize * 4 then .ok none
  else readExactLoop closes chunks length.toNat 0 [] input

def performDohQueryViaProtectedSocket (input : Bytes) : Except Thrown (Option Bytes) := do
  match ← readHttpHeaders closes input with
  | none => return none
  | some (headerBytes, input) =>
      let headerText := asciiText headerBytes
      if ¬ units "HTTP/1.1 200" <+: headerText ∧ ¬ units "HTTP/1.0 200" <+: headerText then
        return none
      else
        match parseContentLength headerText with
        | none => return none
        | some contentLength => readExactBytes closes chunks input contentLength

/-- Its caller: whatever is thrown is no answer. -/
def resolveDnsSecurely (input : Bytes) : Option Bytes :=
  match performDohQueryViaProtectedSocket closes chunks input with
  | .ok body => body
  | .error _ => none

end Readers

/-! ### Headers -/

section Headers

variable {closes : Bool} {buffer input : Bytes}

theorem endsHeaders_iff : endsHeaders buffer = true ↔
    4 ≤ buffer.length ∧ emptyLine <+: buffer.drop (buffer.length - 4) := by
  by_cases long : 4 ≤ buffer.length
  · have back (k : Nat) (inside : k ≤ 3) :
        buffer[buffer.length - (4 - k)]? = (buffer.drop (buffer.length - 4))[k]? := by
      rw [List.getElem?_drop]
      congr 1
      omega
    have size : (buffer.drop (buffer.length - 4)).length = 4 := by
      rw [List.length_drop]
      omega
    rw [endsHeaders, and_iff_right long]
    simp only [long, decide_true, Bool.true_and, back 0 (by decide), back 1 (by decide),
      back 2 (by decide), back 3 (by decide)]
    generalize buffer.drop (buffer.length - 4) = last at size
    match last, size with
    | [a, b, c, d], _ =>
        simp [emptyLine, List.cons_prefix_cons, and_assoc, @eq_comm _ a, @eq_comm _ b,
          @eq_comm _ c, @eq_comm _ d]
  · simp [endsHeaders, long]

/-- The header reader takes the bytes up to the first empty line. -/
theorem readHttpHeadersLoop_eq
    (clean : ∀ i, i + 4 ≤ buffer.length → ¬ emptyLine <+: (buffer ++ input).drop i) :
    readHttpHeadersLoop closes buffer input =
      match find emptyLine (buffer ++ input) with
      | some i =>
          if i + 4 ≤ maxHttpHeaderBytes then
            .ok (some ((buffer ++ input).take (i + 4), (buffer ++ input).drop (i + 4)))
          else .ok none
      | none => if (buffer ++ input).length < maxHttpHeaderBytes then atEnd closes else .ok none := by
  have nonempty : emptyLine ≠ [] := List.cons_ne_nil _ _
  induction input generalizing buffer with
  | nil =>
      have nowhere : find emptyLine (buffer ++ []) = none := by
        apply (find_eq_none_iff nonempty).mpr
        intro i here
        have room : i + 4 ≤ _ := length_le_of_prefix nonempty here
        rw [List.append_nil] at room
        exact clean i room here
      rw [nowhere, readHttpHeadersLoop, List.append_nil]
  | cons read input ih =>
      have whole : buffer ++ read :: input = (buffer ++ [read]) ++ input := by
        rw [List.append_assoc, List.singleton_append]
      have size : (buffer ++ [read]).length = buffer.length + 1 := by
        rw [List.length_append, List.length_singleton]
      -- an empty line that ends with this byte, in the buffer and in the stream
      have here : endsHeaders (buffer ++ [read]) = true ↔ 4 ≤ buffer.length + 1 ∧
          emptyLine <+: (buffer ++ read :: input).drop (buffer.length + 1 - 4) := by
        rw [endsHeaders_iff, size, whole, and_congr_right_iff]
        intro long
        constructor
        · intro ends
          rw [List.drop_append_of_le_length (by omega)]
          exact ends.trans (List.prefix_append _ _)
        · intro ends
          apply prefix_drop_left ends
          change buffer.length + 1 - 4 + 4 ≤ _
          omega
      rw [readHttpHeadersLoop]
      by_cases room : buffer.length < maxHttpHeaderBytes
      · rw [if_pos room]
        dsimp only
        by_cases ends : endsHeaders (buffer ++ [read]) = true
        · obtain ⟨long, line⟩ := here.mp ends
          have first : find emptyLine (buffer ++ read :: input) = some (buffer.length + 1 - 4) := by
            apply (find_eq_some_iff nonempty).mpr
            refine ⟨line, ?_⟩
            intro j before
            exact clean j (by omega)
          have stop : buffer.length + 1 - 4 + 4 = (buffer ++ [read]).length := by omega
          rw [if_pos ends, first]
          dsimp only
          rw [if_pos (by omega), stop, whole, List.take_left, List.drop_left]
        · rw [if_neg ends, whole]
          apply ih
          rw [← whole, size]
          intro i inside line
          by_cases last : i + 4 ≤ buffer.length
          · exact clean i last line
          · have seam : i = buffer.length + 1 - 4 := by omega
            exact ends (here.mpr ⟨by omega, seam ▸ line⟩)
      · -- no empty line ends in a full buffer
        rw [if_neg room]
        split
        · next i found =>
            have far := ((find_eq_some_iff nonempty).mp found).here
            rw [if_neg]
            intro fits
            exact clean i (by omega) far
        · rw [if_neg]
          rw [List.length_append]
          omega

end Headers

/-! ### Bodies -/

section Bodies

variable {closes : Bool} {chunks : Nat → Nat} {length calls : Nat} {out input : Bytes}

/-- The exact reader returns the next bytes of the stream, or it comes to its end. -/
theorem readExactLoop_eq (short : out.length ≤ length) :
    readExactLoop closes chunks length calls out input =
      if length - out.length ≤ input.length then .ok (some (out ++ input.take (length - out.length)))
      else atEnd closes := by
  fun_induction readExactLoop closes chunks length calls out input with
  | case1 calls out less =>
      rw [if_neg]
      rw [List.length_nil]
      omega
  | case2 calls out input less nonempty read ih =>
      have some := List.length_pos_of_ne_nil nonempty
      have bound : read ≤ length - out.length ∧ read ≤ input.length ∧ 1 ≤ read := by omega
      have left : length - (out.length + read) ≤ input.length - read ↔
          length - out.length ≤ input.length := by
        omega
      have parts : length - out.length = read + (length - (out.length + read)) := by omega
      rw [ih (by rw [List.length_append, List.length_take]; omega), List.length_append,
        List.length_take, List.length_drop, min_eq_left bound.2.1]
      simp only [left]
      rw [parts, List.take_add, List.append_assoc]
  | case3 calls out input full =>
      have exact : length - out.length = 0 := by omega
      rw [exact, if_pos (Nat.zero_le _), List.take_zero, List.append_nil]

end Bodies

/-! ### The length -/

section Length

variable {headerText header : Text} {n : Int}

theorem crlf_borderFree : BorderFree crlf := by
  refine ⟨List.cons_ne_nil _ _, ?_⟩
  intro k inside positive
  have one : k = 1 := by
    change k < 2 at inside
    omega
  rw [one]
  decide

/-- The lines of the headers are those before the empty line, and two without a text. -/
theorem split_headers : split crlf (headerText ++ [13, 10, 13, 10]) =
    split crlf headerText ++ [[], []] := by
  have nothing : split crlf [] = [[]] := split_of_none rfl
  have rows : headerText ++ [13, 10, 13, 10] = headerText ++ (crlf ++ ([] ++ (crlf ++ []))) := rfl
  rw [rows, split_append crlf_borderFree, split_append crlf_borderFree, nothing]
  rfl

theorem asciiLower_eq_colon {c : UInt16} (lower : asciiLower c = 58) : c = 58 := by
  unfold asciiLower at lower
  split at lower
  · next letter =>
      have low := UInt16.le_iff_toNat_le.mp letter.1
      have high := UInt16.le_iff_toNat_le.mp letter.2
      have sum := congrArg UInt16.toNat lower
      rw [UInt16.toNat_add] at sum
      change 65 ≤ c.toNat at low
      change c.toNat ≤ 90 at high
      change (c.toNat + 32) % 65536 = 58 at sum
      omega
  · exact lower

/-- The value stands behind the name of the header, which has the first colon. -/
theorem lengthIn_eq (named : isContentLength header = true) :
    lengthIn header = toIntOrNull (fun _ => none) (trim isWhitespace (header.drop 15)) := by
  rw [isContentLength, startsWithIgnoreCase, decide_eq_true_eq] at named
  change (header.take 15).map asciiLower = _ at named
  have colon : header[14]? = some 58 := by
    have last := congrArg (fun text : Text => text[14]?) named
    simp only [List.getElem?_map, List.getElem?_take_of_lt (by decide : 14 < 15)] at last
    have target : (units "Content-Length:")[14]?.map asciiLower = some 58 := by decide
    obtain ⟨c, here, lower⟩ := Option.map_eq_some_iff.mp (last.trans target)
    rw [here, asciiLower_eq_colon lower]
  have clean : 58 ∉ header.take 14 := by
    intro mem
    have lowered := List.mem_map_of_mem (f := asciiLower) mem
    have front : (header.take 14).map asciiLower = ((header.take 15).map asciiLower).take 14 := by
      rw [← List.map_take, List.take_take, min_eq_left (by decide)]
    rw [front, named] at lowered
    revert lowered
    decide
  have whole : header = header.take 14 ++ 58 :: header.drop 15 := by
    obtain ⟨inside, here⟩ := List.getElem?_eq_some_iff.mp colon
    rw [← here, List.cons_getElem_drop_succ, List.take_append_drop]
  have parts : cut [58] header = some (header.take 14, header.drop 15) := by
    have parts := @cut_singleton _ _ (header.take 14) (header.drop 15) 58 clean
    rwa [← whole] at parts
  rw [lengthIn, parts]

/-- Where `parseContentLength` finds a length. -/
theorem parseContentLength_eq_some_iff :
    parseContentLength (headerText ++ [13, 10, 13, 10]) = some n ↔
      ∃ line, (split crlf headerText).find? isContentLength = some line ∧
        HoldsInt (fun _ => none) (line.drop 15) n ∧ -2 ^ 31 ≤ n ∧ n < 2 ^ 31 := by
  have blankLines : [[], []].find? isContentLength = none := by decide
  rw [parseContentLength, split_headers, List.find?_append, blankLines, Option.or_none]
  cases found : (split crlf headerText).find? isContentLength with
  | none => simp
  | some line =>
      dsimp only
      rw [lengthIn_eq (List.find?_some found), toIntOrNull_trim (fun _ _ => rfl)]
      simp

end Length

/-! ### Responses -/

/-- The headers end at `i`, they announce success and `n` bytes, and those follow. -/
structure FramedAt (bytes : Bytes) (i n : Nat) : Prop where
  ended : FirstAt emptyLine bytes i ∧ i + 4 ≤ 8192
  success : units "HTTP/1.1 200" <+: asciiText (bytes.take i) ∨
    units "HTTP/1.0 200" <+: asciiText (bytes.take i)
  length : ∃ line, (split crlf (asciiText (bytes.take i))).find? isContentLength = some line ∧
    HoldsInt (fun _ => none) (line.drop 15) n
  range : 1 ≤ n ∧ n ≤ 2048
  whole : i + 4 + n ≤ bytes.length

section Responses

variable {closes : Bool} {chunks : Nat → Nat} {bytes : Bytes} {i n : Nat}

theorem readHttpHeaders_eq : readHttpHeaders closes bytes =
    match find emptyLine bytes with
    | some i =>
        if i + 4 ≤ maxHttpHeaderBytes then .ok (some (bytes.take (i + 4), bytes.drop (i + 4)))
        else .ok none
    | none => if bytes.length < maxHttpHeaderBytes then atEnd closes else .ok none := by
  apply readHttpHeadersLoop_eq
  intro i inside
  rw [List.length_nil] at inside
  omega

/-- The bytes that the header reader returns. -/
theorem take_headers (first : FirstAt emptyLine bytes i) :
    asciiText (bytes.take (i + 4)) = asciiText (bytes.take i) ++ [13, 10, 13, 10] := by
  obtain ⟨rest, line⟩ := first.here
  rw [List.take_add, ← line]
  exact List.map_append

theorem success_iff {headerText : Text} :
    (¬ units "HTTP/1.1 200" <+: headerText ++ [13, 10, 13, 10] ∧
      ¬ units "HTTP/1.0 200" <+: headerText ++ [13, 10, 13, 10]) ↔
    ¬ (units "HTTP/1.1 200" <+: headerText ∨ units "HTTP/1.0 200" <+: headerText) := by
  rw [prefix_append_cons (by decide), prefix_append_cons (by decide), not_or]

/-- What is done with a stream whose headers end at `i`. -/
theorem perform_of_headers (first : FirstAt emptyLine bytes i) (fits : i + 4 ≤ 8192) :
    performDohQueryViaProtectedSocket closes chunks bytes =
      if units "HTTP/1.1 200" <+: asciiText (bytes.take i) ∨
          units "HTTP/1.0 200" <+: asciiText (bytes.take i) then
        match parseContentLength (asciiText (bytes.take i) ++ [13, 10, 13, 10]) with
        | none => .ok none
        | some contentLength => readExactBytes closes chunks (bytes.drop (i + 4)) contentLength
      else .ok none := by
  have found : find emptyLine bytes = some i :=
    (find_eq_some_iff (List.cons_ne_nil _ _)).mpr first
  have headers : readHttpHeaders closes bytes =
      .ok (some (bytes.take (i + 4), bytes.drop (i + 4))) := by
    rw [readHttpHeaders_eq, found]
    exact if_pos fits
  rw [performDohQueryViaProtectedSocket, headers]
  change (if _ then _ else _) = _
  rw [take_headers first]
  simp only [success_iff, ite_not]
  rfl

/-- A stream without the end of the headers where it is looked for. -/
theorem perform_without_headers (missing : ∀ i, FirstAt emptyLine bytes i → 8192 < i + 4) :
    performDohQueryViaProtectedSocket closes chunks bytes = .ok none ∨
      performDohQueryViaProtectedSocket closes chunks bytes = atEnd closes := by
  have headers : readHttpHeaders closes bytes = .ok none ∨
      readHttpHeaders closes bytes = atEnd closes := by
    rw [readHttpHeaders_eq]
    split
    · next i found =>
        have first : FirstAt emptyLine bytes i :=
          (find_eq_some_iff (List.cons_ne_nil _ _)).mp found
        have far := missing i first
        exact Or.inl (if_neg (Nat.not_le.mpr far))
    · split
      · exact Or.inr rfl
      · exact Or.inl rfl
  rcases headers with none | stop
  · rw [performDohQueryViaProtectedSocket, none]
    exact Or.inl rfl
  · rw [performDohQueryViaProtectedSocket, stop]
    cases closes
    · exact Or.inr rfl
    · exact Or.inr rfl

/-- The body of a response, or the end of the stream. -/
theorem readExactBytes_eq {length : Int} {input : Bytes} (range : 1 ≤ length ∧ length ≤ 2048) :
    readExactBytes closes chunks input length =
      if length.toNat ≤ input.length then .ok (some (input.take length.toNat))
      else atEnd closes := by
  have limit : ((dnsMaxPacketSize * 4 : Nat) : Int) = 2048 := rfl
  rw [readExactBytes, if_neg (by push_cast at limit ⊢; omega), readExactLoop_eq (Nat.zero_le _)]
  rfl

theorem readExactBytes_of_range {length : Int} {input : Bytes}
    (range : ¬ (1 ≤ length ∧ length ≤ 2048)) :
    readExactBytes closes chunks input length = .ok none := by
  have limit : ((dnsMaxPacketSize * 4 : Nat) : Int) = 2048 := rfl
  rw [readExactBytes, if_pos (by push_cast at limit ⊢; omega)]

theorem FramedAt.parse (framed : FramedAt bytes i n) :
    parseContentLength (asciiText (bytes.take i) ++ [13, 10, 13, 10]) = some (n : Int) := by
  obtain ⟨line, found, number⟩ := framed.length
  have range := framed.range
  exact parseContentLength_eq_some_iff.mpr ⟨line, found, number, by omega, by omega⟩

theorem FramedAt.unique {i' n' : Nat} (framed : FramedAt bytes i n)
    (framed' : FramedAt bytes i' n') : i = i' ∧ n = n' := by
  obtain rfl := framed.ended.1.unique framed'.ended.1
  have same := Option.some.inj (framed.parse.symm.trans framed'.parse)
  exact ⟨rfl, Int.ofNat_inj.mp same⟩

/-- A framed response is answered with its body, and any other one not at all. -/
theorem perform_cases (closes : Bool) (chunks : Nat → Nat) (bytes : Bytes) :
    (∃ i n, FramedAt bytes i n ∧ performDohQueryViaProtectedSocket closes chunks bytes =
      .ok (some ((bytes.drop (i + 4)).take n))) ∨
    (¬ ∃ i n, FramedAt bytes i n) ∧
      (performDohQueryViaProtectedSocket closes chunks bytes = .ok none ∨
        performDohQueryViaProtectedSocket closes chunks bytes = atEnd closes) := by
  by_cases ended : ∃ i, FirstAt emptyLine bytes i ∧ i + 4 ≤ 8192
  · obtain ⟨i, first, fits⟩ := ended
    -- a framed response has its headers end here
    have here {i' n : Nat} (framed : FramedAt bytes i' n) : FramedAt bytes i n :=
      framed.ended.1.unique first ▸ framed
    rw [perform_of_headers first fits]
    by_cases success : units "HTTP/1.1 200" <+: asciiText (bytes.take i) ∨
        units "HTTP/1.0 200" <+: asciiText (bytes.take i)
    · rw [if_pos success]
      cases parsed : parseContentLength (asciiText (bytes.take i) ++ [13, 10, 13, 10]) with
      | none =>
          refine Or.inr ⟨?_, Or.inl rfl⟩
          rintro ⟨i', n, framed⟩
          rw [(here framed).parse] at parsed
          cases parsed
      | some length =>
          have same {n : Nat} (framed : FramedAt bytes i n) : (n : Int) = length := by
            have := framed.parse
            rw [parsed] at this
            exact (Option.some.inj this).symm
          dsimp only
          by_cases range : 1 ≤ length ∧ length ≤ 2048
          · rw [readExactBytes_eq range, List.length_drop]
            by_cases whole : length.toNat ≤ bytes.length - (i + 4)
            · rw [if_pos whole]
              refine Or.inl ⟨i, length.toNat, ?_, rfl⟩
              obtain ⟨line, found, number, -⟩ := parseContentLength_eq_some_iff.mp parsed
              have value : (length.toNat : Int) = length := Int.toNat_of_nonneg (by omega)
              exact
                { ended := ⟨first, fits⟩
                  success := success
                  length := ⟨line, found, value.symm ▸ number⟩
                  range := by omega
                  whole := by omega }
            · rw [if_neg whole]
              refine Or.inr ⟨?_, Or.inr rfl⟩
              rintro ⟨i', n, framed⟩
              have := same (here framed)
              have := (here framed).whole
              omega
          · rw [readExactBytes_of_range range]
            refine Or.inr ⟨?_, Or.inl rfl⟩
            rintro ⟨i', n, framed⟩
            have := same (here framed)
            have := framed.range
            omega
    · rw [if_neg success]
      refine Or.inr ⟨?_, Or.inl rfl⟩
      rintro ⟨i', n, framed⟩
      exact success (here framed).success
  · refine Or.inr ⟨?_, perform_without_headers ?_⟩
    · rintro ⟨i, n, framed⟩
      exact ended ⟨i, framed.ended⟩
    · intro i first
      by_contra fits
      exact ended ⟨i, first, Nat.le_of_not_lt fits⟩

end Responses

/-- **Responses are framed.** However the stream arrives, a body is returned exactly for a
framed response, and it is the announced number of bytes behind its headers. Otherwise the
result is null when the stream is closed; when it breaks off, the caller has no answer
either. -/
theorem response_framed_iff (closes : Bool) (chunks : Nat → Nat) (bytes : Bytes) :
    (∀ body, performDohQueryViaProtectedSocket closes chunks bytes = .ok (some body) ↔
      ∃ i n, FramedAt bytes i n ∧ body = (bytes.drop (i + 4)).take n) ∧
    ((¬ ∃ i n, FramedAt bytes i n) →
      performDohQueryViaProtectedSocket true chunks bytes = .ok none ∧
      resolveDnsSecurely closes chunks bytes = none) := by
  constructor
  · intro body
    rcases perform_cases closes chunks bytes with ⟨i, n, framed, result⟩ | ⟨unframed, result⟩
    · rw [result, Except.ok.injEq, Option.some.injEq]
      constructor
      · intro same
        exact ⟨i, n, framed, same.symm⟩
      · rintro ⟨i', n', framed', rfl⟩
        obtain ⟨rfl, rfl⟩ := framed.unique framed'
        rfl
    · constructor
      · intro answered
        rw [answered] at result
        rcases result with none | stop
        · cases none
        · cases closes <;> cases stop
      · rintro ⟨i, n, framed, -⟩
        exact absurd ⟨i, n, framed⟩ unframed
  · intro unframed
    constructor
    · rcases perform_cases true chunks bytes with ⟨i, n, framed, -⟩ | ⟨-, none | stop⟩
      · exact absurd ⟨i, n, framed⟩ unframed
      · exact none
      · exact stop
    · rcases perform_cases closes chunks bytes with ⟨i, n, framed, -⟩ | ⟨-, none | stop⟩
      · exact absurd ⟨i, n, framed⟩ unframed
      · rw [resolveDnsSecurely, none]
      · rw [resolveDnsSecurely, stop]
        cases closes <;> rfl

end TonTunnel.Doh
