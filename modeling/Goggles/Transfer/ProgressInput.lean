/-
Module: Goggles.Transfer.ProgressInput
Purpose: The wrappers around the body of an upload: what they return for any sequence of reads, and
  the count of the bytes they returned.
Trusted boundary: deploy/ingest_worker.py, `ProgressInput`; forensics/request_body.py,
  `CountingInput`.  The clock is a sequence of readings, in any unit; the timeouts set on the
  client socket and `notify`, which nothing that is returned depends on, are left out
Main exports: ProgressInput, CountingInput, StreamCall, memoryRun, CountingInput.run,
  countingInput_transparent
-/
import Goggles.Library.ByteStreams
import Goggles.Python.Text

namespace Goggles

def CHUNK_SIZE : Nat := 64 * 1024

/-- The exception of a deadline that has passed. -/
inductive TimeoutError where
  | transferDeadline
deriving Repr, DecidableEq

/-- What the environment decides: how short the reads of the socket are, what the clock says at each
reading, and how long a transfer may take. -/
structure TransferEnv where
  shorten : Nat → Nat
  clock : Nat → Int
  transferTimeout : Int

/-- `ProgressInput`, with the number of readings of the clock. -/
structure ProgressInput where
  stream : ShortStream
  deadline : Option Int
  readings : Nat
deriving Repr, DecidableEq

/-- The input before it is read. -/
def ProgressInput.new (body : List UInt8) : ProgressInput := ⟨⟨body, 0⟩, none, 0⟩

theorem exists_of_map_eq_ok {ε α β : Type} {result : Except ε α} {change : α → β} {value : β}
    (mapped : result.map change = .ok value) : ∃ found, result = .ok found ∧ change found = value := by
  cases result with
  | error exception => cases mapped
  | ok found => exact ⟨found, rfl, Except.ok.inj mapped⟩

/-! ### `ProgressInput` -/

section Progress

variable (env : TransferEnv)

/-- `deadline`, which the first read sets. -/
def ProgressInput.start (input : ProgressInput) : Int × ProgressInput :=
  match input.deadline with
  | some deadline => (deadline, input)
  | none =>
      let deadline := env.clock input.readings + env.transferTimeout
      (deadline, { input with deadline := some deadline, readings := input.readings + 1 })

/-- One chunk of the loop in `_read`, with the checks of the deadline around it. -/
def ProgressInput.chunk (line : Bool) (limit : Nat) (input : ProgressInput) :
    Except TimeoutError (List UInt8 × ProgressInput) :=
  let (deadline, started) := input.start env
  if deadline - env.clock started.readings ≤ 0 then .error .transferDeadline
  else
    let (chunk, stream) := started.stream.call env.shorten line limit
    if deadline < env.clock (started.readings + 1) then .error .transferDeadline
    else .ok (chunk, { started with stream := stream, readings := started.readings + 2 })

theorem ProgressInput.start_stream (input : ProgressInput) :
    (input.start env).2.stream = input.stream := by
  unfold start
  split <;> rfl

/-- A chunk is what the stream returns. -/
theorem ProgressInput.chunk_stream {line : Bool} {limit : Nat} {input next : ProgressInput}
    {chunk : List UInt8} (taken : input.chunk env line limit = .ok (chunk, next)) :
    chunk = (input.stream.call env.shorten line limit).1 ∧
      next.stream = (input.stream.call env.shorten line limit).2 := by
  unfold ProgressInput.chunk at taken
  split at taken
  next deadline started same =>
  have stream : started.stream = input.stream := by
    rw [← input.start_stream env, same]
  dsimp only at taken
  split at taken
  · cases taken
  split at taken
  · cases taken
  · cases taken
    rw [stream]
    exact ⟨rfl, rfl⟩

/-- `_read`, after `size` is known.  A negative size is no bound. -/
def ProgressInput.readLoop (line : Bool) (size : Int) (chunks : List (List UInt8))
    (input : ProgressInput) : Except TimeoutError (List UInt8 × ProgressInput) :=
  if size = 0 then .ok (chunks.flatten, input)
  else
    match _ : input.chunk env line (if size < 0 then CHUNK_SIZE else min size.toNat CHUNK_SIZE)
      with
    | .error exception => .error exception
    | .ok (chunk, next) =>
        if _ : chunk = [] then .ok (chunks.flatten, next)
        else if line && endsLine chunk then .ok ((chunks ++ [chunk]).flatten, next)
        else
          readLoop line (if 0 < size then size - chunk.length else size) (chunks ++ [chunk]) next
termination_by input.stream.remaining.length
decreasing_by
  rename_i taken filled _
  obtain ⟨rfl, stream⟩ := ProgressInput.chunk_stream env taken
  rw [stream]
  exact ShortStream.call_shrinks filled

/-- `_read`. -/
def ProgressInput.readBytes (line : Bool) (size : Option Int) (input : ProgressInput) :
    Except TimeoutError (List UInt8 × ProgressInput) :=
  input.readLoop env line (size.getD (-1)) []

/-- `read`. -/
def ProgressInput.read (size : Option Int) (input : ProgressInput) :
    Except TimeoutError (List UInt8 × ProgressInput) :=
  input.readBytes env false size

/-- `readline`. -/
def ProgressInput.readline (size : Option Int) (input : ProgressInput) :
    Except TimeoutError (List UInt8 × ProgressInput) :=
  input.readBytes env true size

/-! ### What a read returns -/

/-- The bound that a size is: `None` and negative sizes are none. -/
def sizeBound (size : Int) : Option Nat := if size < 0 then none else some size.toNat

theorem limit_pos (size : Int) (nonzero : size ≠ 0) :
    0 < if size < 0 then CHUNK_SIZE else min size.toNat CHUNK_SIZE := by
  unfold CHUNK_SIZE
  split <;> omega

/-- What the loop returns is what one read in memory returns. -/
theorem ProgressInput.readLoop_spec {line : Bool} {size : Int} {chunks : List (List UInt8)}
    {input next : ProgressInput} {data : List UInt8}
    (returned : input.readLoop env line size chunks = .ok (data, next)) :
    (data, next.stream.remaining) =
      (chunks.flatten ++ (memoryRead line (sizeBound size) input.stream.remaining).1,
        (memoryRead line (sizeBound size) input.stream.remaining).2) := by
  induction left : input.stream.remaining.length using Nat.strongRecOn
    generalizing input chunks size with
  | ind count inductionHypothesis =>
  rw [readLoop] at returned
  split at returned
  · next zero =>
      cases returned
      have bound : sizeBound size = some 0 := by simp [sizeBound, zero]
      rw [bound, memoryRead_zero, List.append_nil]
  next nonzero =>
  split at returned
  · cases returned
  next chunk rest taken =>
  obtain ⟨same, stream⟩ := chunk_stream env taken
  obtain ⟨count, positive, within, part, drained⟩ := @ShortStream.call_spec env.shorten line _
    input.stream (limit_pos size nonzero)
  rw [← same] at part drained
  rw [← stream] at drained
  have fits : ∀ bound, sizeBound size = some bound → chunk.length ≤ bound := by
    intro bound found
    have shorter : chunk.length ≤ count := by
      rw [part]
      exact List.length_take_le _ _
    unfold sizeBound at found
    split at found
    · cases found
    · next bounded =>
        cases found
        rw [if_neg bounded] at within
        omega
  split at returned
  · next blank =>
      cases returned
      have nothing : input.stream.remaining = [] := by
        rw [blank, eq_comm, List.take_eq_nil_iff] at part
        exact available_eq_nil_iff.mp (part.resolve_left (by omega))
      rw [nothing, memoryRead_nil, drained, nothing]
      simp
  next filled =>
  split at returned
  · next ends =>
      cases returned
      rw [memoryRead_ends part ends fits, drained]
      simp
  · next inside =>
      rw [Bool.not_eq_true] at inside
      have shrinks : rest.stream.remaining.length < input.stream.remaining.length := by
        rw [stream]
        exact ShortStream.call_shrinks (same ▸ filled)
      have later := inductionHypothesis _ (left ▸ shrinks) returned rfl
      have bound : sizeBound (if 0 < size then size - chunk.length else size) =
          (sizeBound size).map (· - chunk.length) := by
        rcases Int.lt_or_gt_of_ne nonzero with negative | positive
        · rw [if_neg (by omega), sizeBound, if_pos negative, Option.map_none]
        · have shorter := fits size.toNat (if_neg (by omega))
          rw [if_pos positive, sizeBound, sizeBound, if_neg (by omega), if_neg (by omega),
            Option.map_some, Option.some.injEq]
          omega
      rw [later, memoryRead_more part inside fits, bound, drained]
      simp

theorem ProgressInput.readBytes_spec {line : Bool} {size : Option Int}
    {input next : ProgressInput} {data : List UInt8}
    (returned : input.readBytes env line size = .ok (data, next)) :
    (data, next.stream.remaining) =
      memoryRead line (sizeBound (size.getD (-1))) input.stream.remaining :=
  readLoop_spec env returned

/-- `__next__`; no line is `StopIteration`. -/
def ProgressInput.next (input : ProgressInput) :
    Except TimeoutError (Option (List UInt8) × ProgressInput) :=
  match input.readline env (some (-1)) with
  | .error exception => .error exception
  | .ok (line, rest) => .ok (if line = [] then none else some line, rest)

theorem ProgressInput.next_spec {input rest : ProgressInput} {item : Option (List UInt8)}
    (returned : input.next env = .ok (item, rest)) :
    (item, rest.stream.remaining) = memoryNext input.stream.remaining := by
  unfold ProgressInput.next at returned
  split at returned
  · cases returned
  next line after read =>
  cases returned
  have spec := readBytes_spec env read
  have unbounded : sizeBound ((some (-1 : Int)).getD (-1)) = none := rfl
  rw [unbounded] at spec
  rw [memoryNext, ← spec]

theorem ProgressInput.next_shrinks {input rest : ProgressInput} {line : List UInt8}
    (returned : input.next env = .ok (some line, rest)) :
    rest.stream.remaining.length < input.stream.remaining.length :=
  memoryNext_shrinks (next_spec env returned).symm

/-- The loop of `readlines`, after some lines. -/
def ProgressInput.readlinesLoop (hint : Option Nat) (lines : List (List UInt8)) (total : Nat)
    (input : ProgressInput) : Except TimeoutError (List (List UInt8) × ProgressInput) :=
  match _ : input.next env with
  | .error exception => .error exception
  | .ok (none, rest) => .ok (lines, rest)
  | .ok (some line, rest) =>
      if hint.any (· ≤ total + line.length) then .ok (lines ++ [line], rest)
      else readlinesLoop hint (lines ++ [line]) (total + line.length) rest
termination_by input.stream.remaining.length
decreasing_by
  rename_i returned _
  exact next_shrinks env returned

/-- `hint is not None and hint > 0`. -/
def hintBound (hint : Option Int) : Option Nat := (hint.filter (0 < ·)).map Int.toNat

/-- `readlines`. -/
def ProgressInput.readlines (hint : Option Int) (input : ProgressInput) :
    Except TimeoutError (List (List UInt8) × ProgressInput) :=
  input.readlinesLoop env (hintBound hint) [] 0

theorem ProgressInput.readlinesLoop_spec {hint : Option Nat} {lines result : List (List UInt8)}
    {total : Nat} {input next : ProgressInput}
    (returned : input.readlinesLoop env hint lines total = .ok (result, next)) :
    (result, next.stream.remaining) =
      (lines ++ (memoryReadlines hint total input.stream.remaining).1,
        (memoryReadlines hint total input.stream.remaining).2) := by
  induction left : input.stream.remaining.length using Nat.strongRecOn
    generalizing input lines total with
  | ind count inductionHypothesis =>
  rw [readlinesLoop] at returned
  split at returned
  · cases returned
  · next rest taken =>
      cases returned
      obtain ⟨nothing, same⟩ := memoryNext_eq_none (next_spec env taken).symm
      rw [nothing, same, memoryReadlines_nil, List.append_nil]
  · next line rest taken =>
      obtain ⟨filled, rfl, remaining⟩ := memoryNext_eq_some (next_spec env taken).symm
      rw [memoryReadlines_of_ne_nil filled]
      dsimp only
      split at returned
      · next reached =>
          cases returned
          rw [if_pos reached, remaining]
      · next short =>
          have later := inductionHypothesis _ (left ▸ next_shrinks env taken) returned rfl
          rw [later, if_neg short, remaining]
          simp

/-! ### Reads before the deadline -/

/-- The clock never reaches the deadline that its first reading sets. -/
def TransferEnv.Unexpired (env : TransferEnv) : Prop :=
  ∀ reading, env.clock reading < env.clock 0 + env.transferTimeout

/-- The deadline is not set and the clock not read, or it is that of the first reading. -/
def ProgressInput.OnTime (input : ProgressInput) : Prop :=
  (input.deadline = none ∧ input.readings = 0) ∨
    input.deadline = some (env.clock 0 + env.transferTimeout)

/-- A program on an input that raises nothing and leaves the deadline where it was. -/
def Returns {α : Type} (result : Except TimeoutError (α × ProgressInput)) : Prop :=
  ∃ value next, result = .ok (value, next) ∧ next.OnTime env

variable {env}

theorem Returns.map {α β : Type} {result : Except TimeoutError (α × ProgressInput)}
    (returns : Returns env result) (change : α → β) :
    Returns env (result.map (·.map change id)) := by
  obtain ⟨value, next, rfl, onTime⟩ := returns
  exact ⟨change value, next, rfl, onTime⟩

variable (unexpired : env.Unexpired)

include unexpired in
theorem ProgressInput.chunk_returns {line : Bool} {limit : Nat} {input : ProgressInput}
    (onTime : input.OnTime env) : Returns env (input.chunk env line limit) := by
  have deadline : (input.start env).1 = env.clock 0 + env.transferTimeout ∧
      (input.start env).2.deadline = some (env.clock 0 + env.transferTimeout) := by
    unfold start
    rcases onTime with ⟨unset, fresh⟩ | set
    · rw [unset, fresh]
      exact ⟨rfl, rfl⟩
    · rw [set]
      exact ⟨rfl, set⟩
  unfold ProgressInput.chunk
  split
  next time started same =>
  rw [same] at deadline
  obtain ⟨rfl, kept⟩ := deadline
  have now := unexpired started.readings
  have later := unexpired (started.readings + 1)
  rw [if_neg (by omega)]
  dsimp only
  rw [if_neg (by omega)]
  exact ⟨_, _, rfl, .inr kept⟩

include unexpired in
theorem ProgressInput.readLoop_returns {line : Bool} {size : Int} {chunks : List (List UInt8)}
    {input : ProgressInput} (onTime : input.OnTime env) :
    Returns env (input.readLoop env line size chunks) := by
  induction left : input.stream.remaining.length using Nat.strongRecOn
    generalizing input chunks size with
  | ind count inductionHypothesis =>
  rw [readLoop]
  split
  · exact ⟨_, _, rfl, onTime⟩
  obtain ⟨chunk, rest, taken, restOnTime⟩ := @chunk_returns _ unexpired line
    (if size < 0 then CHUNK_SIZE else min size.toNat CHUNK_SIZE) _ onTime
  split
  · next exception raised =>
      rw [taken] at raised
      cases raised
  next found after same =>
  rw [taken, Except.ok.injEq, Prod.mk.injEq] at same
  obtain ⟨rfl, rfl⟩ := same
  split
  · exact ⟨_, _, rfl, restOnTime⟩
  next filled =>
  split
  · exact ⟨_, _, rfl, restOnTime⟩
  · obtain ⟨piece, stream⟩ := chunk_stream env taken
    apply inductionHypothesis _ _ restOnTime rfl
    rw [← left, stream]
    exact ShortStream.call_shrinks (piece ▸ filled)

include unexpired in
theorem ProgressInput.readBytes_total (line : Bool) (size : Option Int) {input : ProgressInput}
    (onTime : input.OnTime env) : ∃ data next, input.readBytes env line size = .ok (data, next) ∧
      next.OnTime env ∧ (data, next.stream.remaining) =
        memoryRead line (sizeBound (size.getD (-1))) input.stream.remaining := by
  obtain ⟨data, next, returned, nextOnTime⟩ := readLoop_returns unexpired onTime
  exact ⟨data, next, returned, nextOnTime, readBytes_spec env returned⟩

include unexpired in
theorem ProgressInput.next_returns {input : ProgressInput} (onTime : input.OnTime env) :
    Returns env (input.next env) := by
  obtain ⟨line, rest, read, restOnTime⟩ := @readLoop_returns _ unexpired true (-1) [] _ onTime
  have readline : input.readline env (some (-1)) = .ok (line, rest) := read
  rw [ProgressInput.next, readline]
  exact ⟨_, _, rfl, restOnTime⟩

include unexpired in
theorem ProgressInput.readlinesLoop_returns {hint : Option Nat} {lines : List (List UInt8)}
    {total : Nat} {input : ProgressInput} (onTime : input.OnTime env) :
    Returns env (input.readlinesLoop env hint lines total) := by
  induction left : input.stream.remaining.length using Nat.strongRecOn
    generalizing input lines total with
  | ind count inductionHypothesis =>
  rw [readlinesLoop]
  obtain ⟨item, rest, taken, restOnTime⟩ := next_returns unexpired onTime
  split
  · next exception raised =>
      rw [taken] at raised
      cases raised
  · next after same =>
      rw [taken, Except.ok.injEq, Prod.mk.injEq] at same
      obtain ⟨-, rfl⟩ := same
      exact ⟨_, _, rfl, restOnTime⟩
  · next line after same =>
      rw [taken, Except.ok.injEq, Prod.mk.injEq] at same
      obtain ⟨rfl, rfl⟩ := same
      split
      · exact ⟨_, _, rfl, restOnTime⟩
      · exact inductionHypothesis _ (left ▸ next_shrinks env taken) restOnTime rfl

end Progress

/-! ### Calls -/

/-- A call on a stream.  `next` is one step of an iterator, `iterate` a whole iteration. -/
inductive StreamCall where
  | read (size : Option Int)
  | readline (size : Option Int)
  | readlines (hint : Option Int)
  | next
  | iterate
deriving Repr, DecidableEq

/-- What a call returns. -/
inductive StreamReply where
  | bytes (data : List UInt8)
  | lines (listed : List (List UInt8))
  | item (line : Option (List UInt8))
deriving Repr, DecidableEq

/-- The bytes of a reply. -/
def StreamReply.data : StreamReply → List UInt8
  | .bytes data => data
  | .lines listed => listed.flatten
  | .item line => line.getD []

/-- A call on a stream in memory, and what is left. -/
def memoryCall (body : List UInt8) : StreamCall → StreamReply × List UInt8
  | .read size => (memoryRead false (sizeBound (size.getD (-1))) body).map .bytes id
  | .readline size => (memoryRead true (sizeBound (size.getD (-1))) body).map .bytes id
  | .readlines hint => (memoryReadlines (hintBound hint) 0 body).map .lines id
  | .next => (memoryNext body).map .item id
  | .iterate => (memoryReadlines none 0 body).map .lines id

/-- Calls on a stream in memory, one after the other. -/
def memoryRun (body : List UInt8) : List StreamCall → List StreamReply × List UInt8
  | [] => ([], body)
  | call :: rest =>
      let (reply, left) := memoryCall body call
      (memoryRun left rest).map (reply :: ·) id

/-- A call on the wrapper. -/
def ProgressInput.call (env : TransferEnv) (input : ProgressInput) :
    StreamCall → Except TimeoutError (StreamReply × ProgressInput)
  | .read size => (input.read env size).map (·.map .bytes id)
  | .readline size => (input.readline env size).map (·.map .bytes id)
  | .readlines hint => (input.readlines env hint).map (·.map .lines id)
  | .next => (input.next env).map (·.map .item id)
  | .iterate => (input.readlinesLoop env none [] 0).map (·.map .lines id)

/-- A call that returns does what it does in memory. -/
theorem ProgressInput.call_spec {env : TransferEnv} {input next : ProgressInput}
    {call : StreamCall} {reply : StreamReply}
    (returned : input.call env call = .ok (reply, next)) :
    (reply, next.stream.remaining) = memoryCall input.stream.remaining call := by
  cases call with
  | read size =>
      obtain ⟨⟨data, after⟩, read, same⟩ := exists_of_map_eq_ok returned
      cases same
      rw [memoryCall, ← readBytes_spec env read]
      rfl
  | readline size =>
      obtain ⟨⟨data, after⟩, read, same⟩ := exists_of_map_eq_ok returned
      cases same
      rw [memoryCall, ← readBytes_spec env read]
      rfl
  | readlines hint =>
      obtain ⟨⟨lines, after⟩, read, same⟩ := exists_of_map_eq_ok returned
      cases same
      have spec := readlinesLoop_spec env read
      rw [List.nil_append, Prod.eta] at spec
      rw [memoryCall, ← spec]
      rfl
  | next =>
      obtain ⟨⟨line, after⟩, read, same⟩ := exists_of_map_eq_ok returned
      cases same
      rw [memoryCall, ← next_spec env read]
      rfl
  | iterate =>
      obtain ⟨⟨lines, after⟩, read, same⟩ := exists_of_map_eq_ok returned
      cases same
      have spec := readlinesLoop_spec env read
      rw [List.nil_append, Prod.eta] at spec
      rw [memoryCall, ← spec]
      rfl

theorem ProgressInput.call_returns {env : TransferEnv} (unexpired : env.Unexpired)
    {input : ProgressInput} (onTime : input.OnTime env) (call : StreamCall) :
    Returns env (input.call env call) := by
  cases call with
  | read size => exact (readLoop_returns unexpired onTime).map _
  | readline size => exact (readLoop_returns unexpired onTime).map _
  | readlines hint => exact (readlinesLoop_returns unexpired onTime).map _
  | next => exact (next_returns unexpired onTime).map _
  | iterate => exact (readlinesLoop_returns unexpired onTime).map _

/-! ### `CountingInput` -/

/-- `CountingInput` around a stream. -/
structure CountingInput (σ : Type) where
  stream : σ
  bytesRead : Nat
deriving Repr, DecidableEq

/-- The wrapper before it is read. -/
def CountingInput.new {σ : Type} (stream : σ) : CountingInput σ := ⟨stream, 0⟩

namespace CountingInput

section Calls

variable {σ ε : Type} (streamCall : σ → StreamCall → Except ε (StreamReply × σ))

/-- `read`, `readline`, `readlines` and the iteration: each returns what the stream returns, and adds
its bytes to the count. -/
def call (input : CountingInput σ) (call : StreamCall) :
    Except ε (StreamReply × CountingInput σ) :=
  match streamCall input.stream call with
  | .error exception => .error exception
  | .ok (reply, stream) => .ok (reply, ⟨stream, input.bytesRead + reply.data.length⟩)

/-- Calls one after the other. -/
def run (input : CountingInput σ) :
    List StreamCall → Except ε (List StreamReply × CountingInput σ)
  | [] => .ok ([], input)
  | call :: rest =>
      match input.call streamCall call with
      | .error exception => .error exception
      | .ok (reply, next) => (next.run rest).map (·.map (reply :: ·) id)

end Calls

/-- The input has some bytes left and has counted the others. -/
structure Holds (env : TransferEnv) (total : Nat) (left : List UInt8)
    (input : CountingInput ProgressInput) : Prop where
  onTime : input.stream.OnTime env
  remaining : input.stream.stream.remaining = left
  counted : input.bytesRead = total

variable {env : TransferEnv} (unexpired : env.Unexpired)

include unexpired in
/-- One call returns what it returns in memory, and counts it. -/
theorem call_spec {total : Nat} {left : List UInt8} {input : CountingInput ProgressInput}
    (holds : input.Holds env total left) (call : StreamCall) :
    ∃ next, input.call (ProgressInput.call env) call = .ok ((memoryCall left call).1, next) ∧
      next.Holds env (total + (memoryCall left call).1.data.length) (memoryCall left call).2 := by
  obtain ⟨onTime, rfl, rfl⟩ := holds
  obtain ⟨reply, next, returned, nextOnTime⟩ :=
    ProgressInput.call_returns unexpired onTime call
  rw [← ProgressInput.call_spec returned]
  refine ⟨⟨next, input.bytesRead + reply.data.length⟩, ?_, nextOnTime, rfl, rfl⟩
  rw [CountingInput.call, returned]

include unexpired in
/-- Calls return what they return in memory, and count it. -/
theorem run_spec (calls : List StreamCall) {total : Nat} {left : List UInt8}
    {input : CountingInput ProgressInput} (holds : input.Holds env total left) :
    ∃ last, input.run (ProgressInput.call env) calls = .ok ((memoryRun left calls).1, last) ∧
      last.Holds env (total + ((memoryRun left calls).1.map fun reply => reply.data.length).sum)
        (memoryRun left calls).2 := by
  induction calls generalizing total left input with
  | nil => exact ⟨input, rfl, by simpa [memoryRun] using holds⟩
  | cons call rest inductionHypothesis =>
      obtain ⟨next, called, nextHolds⟩ := call_spec unexpired holds call
      obtain ⟨last, ran, lastHolds⟩ := inductionHypothesis nextHolds
      refine ⟨last, ?_, ?_⟩
      · rw [run, called]
        dsimp only
        rw [ran]
        rfl
      · simpa [memoryRun, Nat.add_assoc] using lastHolds

end CountingInput

/-- While no deadline passes, the wrappers return what a stream in memory returns, and have counted
the bytes they returned. -/
theorem countingInput_transparent (env : TransferEnv) (unexpired : env.Unexpired)
    (body : List UInt8) (calls : List StreamCall) :
    ∃ last, (CountingInput.new (ProgressInput.new body)).run (ProgressInput.call env) calls =
        .ok ((memoryRun body calls).1, last) ∧
      last.bytesRead = ((memoryRun body calls).1.map fun reply => reply.data.length).sum := by
  have start : (CountingInput.new (ProgressInput.new body)).Holds env 0 body :=
    ⟨.inl ⟨rfl, rfl⟩, rfl, rfl⟩
  obtain ⟨last, ran, holds⟩ := CountingInput.run_spec unexpired calls start
  exact ⟨last, ran, by rw [holds.counted, Nat.zero_add]⟩

/-- Short reads of one and two bytes in turn, before a deadline far away. -/
def dribbling : TransferEnv := ⟨fun call => call % 2 + 1, fun reading => reading % 7, 900⟩

theorem countingInput_transparent_dribbling :
    ∃ last, (CountingInput.new (ProgressInput.new (lit "ab\ncde\n\nf" |>.map UInt8.ofNat))).run
        (ProgressInput.call dribbling)
        [.readline (some 2), .next, .readlines (some 3), .read none, .read (some 4), .iterate] =
      .ok ([.bytes [0x61, 0x62], .item (some [0x0a]), .lines [[0x63, 0x64, 0x65, 0x0a]],
        .bytes [0x0a, 0x66], .bytes [], .lines []], last) ∧ last.bytesRead = 9 := by
  have unexpired : dribbling.Unexpired := by
    intro reading
    simp only [dribbling]
    omega
  exact countingInput_transparent dribbling unexpired _ _

end Goggles
