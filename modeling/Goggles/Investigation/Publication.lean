/-
Module: Goggles.Investigation.Publication
Purpose: The publication of a bundle over every schedule of failing system calls: what is left in
  the directory when it returns, when it raises, and when it cannot tell.
Trusted boundary: forensics/investigation_bundle.py, `_sync_directory`, `validate_bundle_target`,
  `write_bundle`.  One directory is modelled: names for files, and the bytes of each file.  A
  failing call changes no name; a failing write may have written any part of its buffer.  Nobody
  else writes to the directory meanwhile, and no exception is handled where `write_bundle` is called
Main exports: Machine, Platform, publish, writeBundle, AtomicOutcome, writeBundle_atomic
-/
import Goggles.Investigation.Bundle
import Goggles.Library.Raising

namespace Goggles

/-! ### The file system -/

/-- The directory of the target, with what `write_bundle` keeps in variables. -/
structure Machine where
  directory : Keyed Str Nat
  files : Nat → List UInt8
  nextFile : Nat
  buffer : List UInt8
  calls : Nat
  temporary : Option Str
  linked : Bool

/-- What `os.lstat` finds of the parent, or how it fails. -/
structure ParentStat where
  isDirectory : Bool
  ownedByUser : Bool
  closedToOthers : Bool
deriving Repr, DecidableEq

/-- What the operating system decides: which calls fail and how much a write writes, by the number
of calls before, and the name `mkstemp` draws. -/
structure Platform where
  faults : Nat → Option OsError
  drained : Nat → Nat
  temporaryName : Str
  parent : Except OsError ParentStat
  parentExists : Bool

/-- Programs that work on the file system. -/
abbrev Os := EStateM BundleError Machine

/-- The bytes of a file after more were written to it from the buffer. -/
def Machine.drain (machine : Machine) (file count : Nat) : Machine :=
  { machine with
    files := Function.update machine.files file (machine.files file ++ machine.buffer.take count)
    buffer := machine.buffer.drop count }

namespace Platform

variable (platform : Platform)

/-- A system call, which may fail. -/
def call : Os PUnit := fun machine =>
  let next := { machine with calls := machine.calls + 1 }
  match platform.faults machine.calls with
  | none => .ok ⟨⟩ next
  | some error => .error (.os error) next

/-- `tempfile.mkstemp`: the file, and its name, which is new. -/
def mkstemp : Os (Nat × Str) := do
  platform.call
  fun machine =>
    match machine.directory.find platform.temporaryName with
    | some _ => .error (.os .fileExists) machine
    | none =>
        .ok (machine.nextFile, platform.temporaryName)
          { machine with
            directory := machine.directory.upsert platform.temporaryName fun _ => machine.nextFile
            files := Function.update machine.files machine.nextFile []
            nextFile := machine.nextFile + 1
            buffer := [] }

/-- A call that writes from the buffer: all of it, or some when it fails. -/
def flush (file : Nat) : Os PUnit := fun machine =>
  match platform.call machine with
  | .ok _ next => .ok ⟨⟩ (next.drain file next.buffer.length)
  | .error error next => .error error (next.drain file (platform.drained machine.calls))

/-- `stream.write`, which writes through when it likes. -/
def write (file : Nat) (bytes : List UInt8) : Os PUnit := fun machine =>
  let buffered := { machine with buffer := machine.buffer ++ bytes }
  match platform.call buffered with
  | .ok _ next => .ok ⟨⟩ (next.drain file (platform.drained machine.calls))
  | .error error next => .error error (next.drain file (platform.drained machine.calls))

/-- `stream.close`, which flushes and closes the descriptor in any case. -/
def closeStream (file : Nat) : Os PUnit :=
  cleanup (platform.flush file) fun _ => platform.call

/-- `os.link`. -/
def link (source target : Str) : Os PUnit := do
  platform.call
  fun machine =>
    match machine.directory.find target, machine.directory.find source with
    | some _, _ => .error (.os .fileExists) machine
    | none, none => .error (.os .fileNotFound) machine
    | none, some file =>
        .ok ⟨⟩ { machine with directory := machine.directory.upsert target fun _ => file }

/-- `os.unlink`. -/
def unlink (name : Str) : Os PUnit := do
  platform.call
  fun machine =>
    match machine.directory.find name with
    | none => .error (.os .fileNotFound) machine
    | some _ => .ok ⟨⟩ { machine with directory := machine.directory.restrict (· ≠ name) }

/-- `_sync_directory`. -/
def syncDirectory : Os PUnit := do
  platform.call
  cleanup platform.call fun _ => platform.call

/-! ### Publication -/

/-- The emits, within the budget. -/
def emitAll (file : Nat) : (written : Nat) → (pieces : List (Option Str)) → Os PUnit
  | _, [] => pure ⟨⟩
  | _, none :: _ => throw .valueError
  | written, some piece :: rest =>
      let encoded := encodeUtf8 piece
      if MAX_BUNDLE_BYTES < written + encoded.length then
        throw (.incomplete "bundle_budget_exceeded")
      else do
        platform.write file encoded
        emitAll file (written + encoded.length) rest

/-- The body of the `with` statement. -/
def writeStream (file : Nat) (pieces : List (Option Str)) : Os PUnit := do
  platform.emitAll file 0 pieces
  platform.flush file
  platform.call

/-- `os.fchmod` and `os.fdopen`, with the `os.close` when one fails. -/
def openStream : Os PUnit :=
  handle (do platform.call; platform.call) fun error => do
    platform.call
    throw error

/-- The body of the outer `try`. -/
def publishBody (target : Str) (pieces : List (Option Str)) : Os PUnit := do
  let (descriptor, temporary) ← platform.mkstemp
  modify fun machine => { machine with temporary := some temporary }
  platform.openStream
  cleanup (platform.writeStream descriptor pieces) fun _ => platform.closeStream descriptor
  platform.link temporary target
  modify fun machine => { machine with linked := true }
  platform.syncDirectory

/-- What removes a published target. -/
def rollback (target : Str) : Os PUnit :=
  handle (do platform.unlink target; platform.syncDirectory) fun error =>
    match error with
    | .os _ => throw (.uncertain "bundle_publication_uncertain")
    | other => throw other

/-- `except OSError`. -/
def publishHandler (target : Str) (error : BundleError) : Os PUnit :=
  match error with
  | .os error => do
      let machine ← get
      if machine.linked then platform.rollback target else pure ⟨⟩
      throw (.incomplete
        (if error = .fileExists then "bundle_target_exists" else "bundle_write_failed"))
  | other => throw other

/-- `finally`. -/
def publishFinally (pending : Option BundleError) : Os PUnit := do
  let machine ← get
  match machine.temporary with
  | none => pure ⟨⟩
  | some temporary =>
      handle (do platform.unlink temporary; platform.syncDirectory) fun error =>
        match error, pending with
        | .os _, some (.uncertain _) => pure ⟨⟩
        | .os _, _ => throw (.uncertain "bundle_cleanup_uncertain")
        | other, _ => throw other

/-- The part of `write_bundle` that makes files. -/
def publish (target : Str) (pieces : List (Option Str)) : Os PUnit := do
  modify fun machine => { machine with temporary := none, linked := false }
  cleanup (handle (platform.publishBody target pieces) (platform.publishHandler target))
    platform.publishFinally

/-! ### The target -/

/-- `os.lstat(target)`. -/
def lstat (name : Str) : Os PUnit := do
  platform.call
  fun machine =>
    match machine.directory.find name with
    | none => .error (.os .fileNotFound) machine
    | some _ => .ok ⟨⟩ machine

/-- `os.lstat(target.parent)` and what is asked of the parent. -/
def inspectParent : Os PUnit :=
  match platform.parent with
  | .error error => throw (.os error)
  | .ok parent =>
      if parent.isDirectory && parent.ownedByUser && parent.closedToOthers then pure ⟨⟩
      else throw (.incomplete "bundle_parent_not_private")

/-- Whether the target exists. -/
def targetExists (target : Str) : Os Bool :=
  handle
    (do
      platform.inspectParent
      platform.lstat target
      return true)
    fun error =>
      match error with
      | .os .fileNotFound =>
          if platform.parentExists then return false
          else throw (.incomplete "bundle_parent_unavailable")
      | .os _ => throw (.incomplete "bundle_target_unavailable")
      | other => throw other

/-- `validate_bundle_target`. -/
def validateBundleTarget (isAbsolute : Bool) (target : Str) : Os PUnit :=
  if isAbsolute then do
    let found ← platform.targetExists target
    if found then throw (.incomplete "bundle_target_exists") else pure ⟨⟩
  else throw (.incomplete "bundle_path_must_be_absolute")

end Platform

/-- An exception that a pure computation raised. -/
def raiseError {ρ : Type} : Except BundleError ρ → Os ρ
  | .ok value => pure value
  | .error error => throw error

/-- `write_bundle`. -/
def writeBundle (platform : Platform) (floatRepr : PyFloat → Str) (toolVersion : Option Str)
    (isAbsolute : Bool) (target : Str) (evidence : Evidence) (arguments : BundleArguments) :
    Os PUnit := do
  platform.validateBundleTarget isAbsolute target
  let (header, content) ← raiseError (prepareBundle toolVersion evidence arguments)
  platform.publish target (bundlePieces floatRepr header content)

/-! ### What is left in the directory -/

/-- Every name is that of a file that was made. -/
def Machine.Sound (machine : Machine) : Prop :=
  ∀ name file, machine.directory.find name = some file → file < machine.nextFile

/-- The directory has some names more than before, for files that are new. -/
structure Added (before : Machine) (added : List (Str × Nat)) (machine : Machine) : Prop where
  names : ∀ name file, machine.directory.find name = some file ↔
    before.directory.find name = some file ∨ (name, file) ∈ added
  fresh : ∀ entry ∈ added, before.directory.find entry.1 = none ∧ before.nextFile ≤ entry.2
  files : ∀ file < before.nextFile, machine.files file = before.files file
  next : before.nextFile ≤ machine.nextFile

/-- Every name of before is there, for the same bytes. -/
def Kept (before machine : Machine) : Prop :=
  ∀ name file, before.directory.find name = some file →
    machine.directory.find name = some file ∧ machine.files file = before.files file

/-- The directory has the target more than before, and it holds a text. -/
def Published (before : Machine) (target : Str) (text : List UInt8) (machine : Machine) : Prop :=
  ∃ file, Added before [(target, file)] machine ∧ machine.files file = text

section Atomic

variable {platform : Platform} {before machine : Machine} {added : List (Str × Nat)}

theorem Added.kept (holds : Added before added machine) (sound : before.Sound) :
    Kept before machine := fun name file found =>
  ⟨(holds.names name file).mpr (.inl found), holds.files file (sound name file found)⟩

theorem Added.drain (holds : Added before added machine) {file : Nat}
    (new : before.nextFile ≤ file) (count : Nat) : Added before added (machine.drain file count) where
  names := holds.names
  fresh := holds.fresh
  files other old := by
    have apart : other ≠ file := by omega
    exact (Function.update_of_ne apart _ _).trans (holds.files other old)
  next := holds.next

/-- The directory alone is looked at. -/
theorem Added.of_same {other : Machine} (holds : Added before added machine)
    (directory : other.directory = machine.directory) (files : other.files = machine.files)
    (next : other.nextFile = machine.nextFile) : Added before added other where
  names := by rw [directory]; exact holds.names
  fresh := holds.fresh
  files := by rw [files]; exact holds.files
  next := by rw [next]; exact holds.next

/-- A name is removed. -/
theorem Added.unlink (holds : Added before added machine) {name : Str} {file : Nat}
    (mine : (name, file) ∈ added) :
    Added before (added.filter (·.1 ≠ name))
      { machine with directory := machine.directory.restrict (· ≠ name) } where
  names := by
    intro other otherFile
    rw [Keyed.find_restrict]
    by_cases same : other = name
    · have absent := (holds.fresh _ mine).1
      simp [same, absent]
    · simp [same, holds.names other otherFile]
  fresh entry member := holds.fresh entry (List.mem_of_mem_filter member)
  files := holds.files
  next := holds.next

/-- A name is given to a file that is new. -/
theorem Added.name (holds : Added before added machine) {name : Str} {file : Nat}
    (absent : machine.directory.find name = none) (new : before.nextFile ≤ file) :
    Added before (added ++ [(name, file)])
      { machine with directory := machine.directory.upsert name fun _ => file } where
  names := by
    intro other otherFile
    rw [Keyed.find_upsert, List.mem_append, ← or_assoc, ← holds.names other otherFile]
    by_cases same : other = name
    · simp [same, absent, eq_comm]
    · simp [same]
  fresh := by
    intro entry member
    rcases List.mem_append.mp member with old | rest
    · exact holds.fresh entry old
    · obtain rfl := List.mem_singleton.mp rest
      refine ⟨?_, new⟩
      cases found : before.directory.find name with
      | none => rfl
      | some other =>
          have there := (holds.names name other).mpr (.inl found)
          rw [absent] at there
          cases there
  files := holds.files
  next := holds.next

/-- The directory, with the variables of `write_bundle`. -/
structure Stage (before : Machine) (added : List (Str × Nat)) (temporary : Option Str)
    (linked : Bool) (machine : Machine) : Prop extends Added before added machine where
  temporary_eq : machine.temporary = temporary
  linked_eq : machine.linked = linked

/-- An exception of the operating system. -/
def IsOsError (exception : BundleError) : Prop := ∃ error, exception = .os error

theorem call_triple {holds : Machine → Prop}
    (stable : ∀ machine, holds machine → holds { machine with calls := machine.calls + 1 }) :
    Triple holds platform.call (fun _ => holds)
      fun exception machine => IsOsError exception ∧ holds machine := by
  intro machine held
  unfold Platform.call
  dsimp only
  cases platform.faults machine.calls with
  | none => exact stable machine held
  | some error => exact ⟨⟨error, rfl⟩, stable machine held⟩

section Stages

variable {temporary : Option Str} {linked : Bool}

theorem Stage.call (machine : Machine) (stage : Stage before added temporary linked machine) :
    Stage before added temporary linked { machine with calls := machine.calls + 1 } :=
  ⟨⟨stage.names, stage.fresh, stage.files, stage.next⟩, stage.temporary_eq, stage.linked_eq⟩

theorem Stage.drain {file : Nat} (new : before.nextFile ≤ file) (count : Nat)
    (stage : Stage before added temporary linked machine) :
    Stage before added temporary linked (machine.drain file count) :=
  ⟨stage.toAdded.drain new count, stage.temporary_eq, stage.linked_eq⟩

/-- A call keeps the stage. -/
theorem stage_call : Triple (Stage before added temporary linked) platform.call
    (fun _ => Stage before added temporary linked)
    fun exception machine =>
      IsOsError exception ∧ Stage before added temporary linked machine :=
  call_triple Stage.call

/-- A name of ours is removed, and the bytes of all files stay. -/
theorem unlink_triple (holds : (Nat → List UInt8) → Prop) {name : Str} {file : Nat}
    (mine : (name, file) ∈ added) :
    Triple (fun machine => Stage before added temporary linked machine ∧ holds machine.files)
      (platform.unlink name)
      (fun _ machine => Stage before (added.filter (·.1 ≠ name)) temporary linked machine ∧
        holds machine.files)
      fun exception machine =>
        IsOsError exception ∧ Stage before added temporary linked machine := by
  have calling : Triple
      (fun machine => Stage before added temporary linked machine ∧ holds machine.files)
      platform.call
      (fun _ machine => Stage before added temporary linked machine ∧ holds machine.files)
      fun exception machine =>
        IsOsError exception ∧ Stage before added temporary linked machine :=
    (call_triple fun machine held => ⟨held.1.call, held.2⟩).weaken (fun _ held => held)
      (fun _ _ held => held) fun _ _ raised => ⟨raised.1, raised.2.1⟩
  apply calling.bind
  intro _ machine ⟨stage, held⟩
  have there := (stage.names name file).mpr (.inr mine)
  simp only [there]
  exact ⟨⟨stage.toAdded.unlink mine, stage.temporary_eq, stage.linked_eq⟩, held⟩

theorem syncDirectory_triple {holds : Machine → Prop}
    (stable : ∀ machine, holds machine → holds { machine with calls := machine.calls + 1 }) :
    Triple holds platform.syncDirectory (fun _ => holds)
      fun exception machine => IsOsError exception ∧ holds machine := by
  have calling := @call_triple platform holds stable
  apply calling.bind
  intro _
  apply calling.cleanup
  · exact fun _ => calling
  · intro exception machine caught
    exact calling.weaken (fun _ held => held) (fun _ _ held => ⟨caught.1, held⟩)
      (fun _ _ raised => raised) machine caught.2

/-- The file that is written and the buffer make up a text. -/
structure Writing (before : Machine) (name : Str) (file : Nat) (text : List UInt8)
    (machine : Machine) : Prop
    extends Stage before [(name, file)] (some name) false machine where
  new : before.nextFile ≤ file
  text_eq : machine.files file ++ machine.buffer = text

variable {name : Str} {file : Nat}

theorem drain_text (machine : Machine) (file count : Nat) :
    (machine.drain file count).files file ++ (machine.drain file count).buffer =
      machine.files file ++ machine.buffer := by
  have written : (machine.drain file count).files file =
      machine.files file ++ machine.buffer.take count := Function.update_self ..
  rw [written, Machine.drain, List.append_assoc, List.take_append_drop]

theorem Writing.call {text : List UInt8} (machine : Machine)
    (writing : Writing before name file text machine) :
    Writing before name file text { machine with calls := machine.calls + 1 } :=
  ⟨writing.toStage.call, writing.new, writing.text_eq⟩

theorem Writing.drain {text : List UInt8} (writing : Writing before name file text machine)
    (count : Nat) : Writing before name file text (machine.drain file count) :=
  ⟨writing.toStage.drain writing.new count, writing.new,
    (drain_text machine file count).trans writing.text_eq⟩

/-- Nothing but the temporary file is there, and it is ours to remove. -/
abbrev Unlinked (before : Machine) (name : Str) (file : Nat) : Machine → Prop :=
  Stage before [(name, file)] (some name) false

theorem write_triple {text bytes : List UInt8} :
    Triple (Writing before name file text) (platform.write file bytes)
      (fun _ => Writing before name file (text ++ bytes))
      fun exception machine => IsOsError exception ∧ Unlinked before name file machine := by
  intro machine writing
  have buffered : Writing before name file (text ++ bytes)
      { machine with buffer := machine.buffer ++ bytes } :=
    ⟨⟨⟨writing.names, writing.fresh, writing.files, writing.next⟩, writing.temporary_eq,
      writing.linked_eq⟩, writing.new, by rw [← writing.text_eq, List.append_assoc]⟩
  have called := @call_triple platform _ Writing.call _ buffered
  unfold Platform.write
  dsimp only
  cases ran : platform.call { machine with buffer := machine.buffer ++ bytes } with
  | ok value next =>
      rw [ran] at called
      exact called.drain _
  | error exception next =>
      rw [ran] at called
      exact ⟨called.1, (called.2.drain _).toStage⟩

theorem flush_triple {text : List UInt8} :
    Triple (Writing before name file text) (platform.flush file)
      (fun _ machine => Writing before name file text machine ∧ machine.buffer = [])
      fun exception machine => IsOsError exception ∧ Unlinked before name file machine := by
  intro machine writing
  have called := @call_triple platform _ Writing.call _ writing
  unfold Platform.flush
  cases ran : platform.call machine with
  | ok value next =>
      rw [ran] at called
      exact ⟨called.drain _, List.drop_length⟩
  | error exception next =>
      rw [ran] at called
      exact ⟨called.1, (called.2.drain _).toStage⟩

/-- An exception that is not a report of uncertainty. -/
def Definite (exception : BundleError) : Prop := ∀ reason, exception ≠ .uncertain reason

theorem IsOsError.definite {exception : BundleError} (raised : IsOsError exception) :
    Definite exception := by
  obtain ⟨error, rfl⟩ := raised
  intro reason same
  cases same

/-- All pieces are written, when there are texts for all. -/
theorem emitAll_triple (written : Nat) (pieces : List (Option Str)) {text : List UInt8} :
    Triple (Writing before name file text) (platform.emitAll file written pieces)
      (fun _ machine => ∃ more : {more // bundleText pieces = some more},
        Writing before name file (text ++ encodeUtf8 more) machine)
      fun exception machine => Definite exception ∧ Unlinked before name file machine := by
  induction pieces generalizing written text with
  | nil =>
      apply Triple.pure
      intro machine writing
      refine ⟨⟨[], rfl⟩, ?_⟩
      rwa [encodeUtf8, List.flatMap_nil, List.append_nil]
  | cons piece rest inductionHypothesis =>
      cases piece with
      | none =>
          apply Triple.throw
          intro machine writing
          exact ⟨by rintro _ ⟨⟩, writing.toStage⟩
      | some piece =>
          rw [Platform.emitAll]
          split
          · apply Triple.throw
            intro machine writing
            exact ⟨by rintro _ ⟨⟩, writing.toStage⟩
          · have first : Triple (Writing before name file text)
                (platform.write file (encodeUtf8 piece))
                (fun _ => Writing before name file (text ++ encodeUtf8 piece))
                fun exception machine => Definite exception ∧ Unlinked before name file machine :=
              write_triple.weaken (fun _ writing => writing) (fun _ _ next => next)
                fun _ _ raised => ⟨raised.1.definite, raised.2⟩
            apply first.bind
            intro _
            have later := @inductionHypothesis (written + (encodeUtf8 piece).length)
              (text ++ encodeUtf8 piece)
            apply later.weaken (fun _ writing => writing) _ fun _ _ raised => raised
            rintro _ machine ⟨⟨more, rested⟩, writing⟩
            refine ⟨⟨piece ++ more, by rw [bundleText, rested, Option.map_some]⟩, ?_⟩
            rwa [encodeUtf8, List.flatMap_append, ← List.append_assoc]

/-- The temporary file holds all of a text. -/
structure Written (before : Machine) (name : Str) (file : Nat) (text : List UInt8)
    (machine : Machine) : Prop extends Writing before name file text machine where
  flushed : machine.buffer = []

theorem Written.call {text : List UInt8} (machine : Machine)
    (written : Written before name file text machine) :
    Written before name file text { machine with calls := machine.calls + 1 } :=
  ⟨written.toWriting.call, written.flushed⟩

theorem writeStream_triple (pieces : List (Option Str)) :
    Triple (Writing before name file []) (platform.writeStream file pieces)
      (fun _ machine => ∃ text : {text // bundleText pieces = some text},
        Written before name file (encodeUtf8 text) machine)
      fun exception machine => Definite exception ∧ Unlinked before name file machine := by
  apply Triple.bind (@emitAll_triple platform before name file 0 pieces [])
  intro _
  apply Triple.of_exists
  rintro ⟨text, complete⟩
  have flushing : Triple (Writing before name file (encodeUtf8 text)) (platform.flush file)
      (fun _ => Written before name file (encodeUtf8 text))
      fun exception machine => Definite exception ∧ Unlinked before name file machine :=
    flush_triple.weaken (fun _ writing => writing) (fun _ _ flushed => ⟨flushed.1, flushed.2⟩)
      fun _ _ raised => ⟨raised.1.definite, raised.2⟩
  have syncing : Triple (Written before name file (encodeUtf8 text)) platform.call
      (fun _ machine => ∃ text : {text // bundleText pieces = some text},
        Written before name file (encodeUtf8 text) machine)
      fun exception machine => Definite exception ∧ Unlinked before name file machine :=
    (call_triple Written.call).weaken (fun _ written => written)
      (fun _ _ written => ⟨⟨text, complete⟩, written⟩)
      fun _ _ raised => ⟨raised.1.definite, raised.2.toStage⟩
  rw [List.nil_append]
  exact flushing.bind fun _ => syncing

/-- Closing a stream keeps the stage, whether or not it fails. -/
theorem closeStream_stage (new : before.nextFile ≤ file) :
    Triple (Unlinked before name file) (platform.closeStream file)
      (fun _ => Unlinked before name file)
      fun exception machine => Definite exception ∧ Unlinked before name file machine := by
  have closing : Triple (Unlinked before name file) platform.call
      (fun _ => Unlinked before name file)
      fun exception machine => Definite exception ∧ Unlinked before name file machine :=
    stage_call.weaken (fun _ stage => stage) (fun _ _ stage => stage)
      fun _ _ raised => ⟨raised.1.definite, raised.2⟩
  have flushing : Triple (Unlinked before name file) (platform.flush file)
      (fun _ => Unlinked before name file)
      fun exception machine => Definite exception ∧ Unlinked before name file machine := by
    intro machine stage
    have called := @stage_call platform before _ _ _ machine stage
    unfold Platform.flush
    cases ran : platform.call machine with
    | ok value next =>
        rw [ran] at called
        exact called.drain new _
    | error exception next =>
        rw [ran] at called
        exact ⟨called.1.definite, called.2.drain new _⟩
  apply flushing.cleanup
  · exact fun _ => closing
  · intro exception machine caught
    exact closing.weaken (fun _ stage => stage) (fun _ _ stage => ⟨caught.1, stage⟩)
      (fun _ _ raised => raised) machine caught.2

/-- Closing a stream that is written keeps what is written. -/
theorem closeStream_written {text : List UInt8} :
    Triple (Written before name file text) (platform.closeStream file)
      (fun _ => Written before name file text)
      fun exception machine => Definite exception ∧ Unlinked before name file machine := by
  have flushing : Triple (Written before name file text) (platform.flush file)
      (fun _ => Written before name file text)
      fun exception machine => Definite exception ∧ Unlinked before name file machine :=
    flush_triple.weaken (fun _ written => written.toWriting)
      (fun _ _ flushed => ⟨flushed.1, flushed.2⟩) fun _ _ raised => ⟨raised.1.definite, raised.2⟩
  have closing : Triple (Written before name file text) platform.call
      (fun _ => Written before name file text)
      fun exception machine => Definite exception ∧ Unlinked before name file machine :=
    (call_triple Written.call).weaken (fun _ written => written) (fun _ _ written => written)
      fun _ _ raised => ⟨raised.1.definite, raised.2.toStage⟩
  apply flushing.cleanup
  · exact fun _ => closing
  · intro exception machine caught
    exact stage_call.weaken (fun _ stage => stage) (fun _ _ stage => ⟨caught.1, stage⟩)
      (fun _ _ raised => ⟨raised.1.definite, raised.2⟩) machine caught.2

/-! ### The body of the try statement -/

theorem mkstemp_triple : Triple (Stage before [] none false) platform.mkstemp
    (fun made machine => Stage before [(made.2, made.1)] none false machine ∧
      before.nextFile ≤ made.1 ∧ machine.files made.1 = [] ∧ machine.buffer = [])
    fun exception machine => IsOsError exception ∧ Stage before [] none false machine := by
  apply Triple.bind stage_call
  intro _ machine stage
  cases taken : machine.directory.find platform.temporaryName with
  | some other =>
      simp only [taken]
      exact ⟨⟨_, rfl⟩, stage⟩
  | none =>
      simp only [taken]
      have named := stage.toAdded.name taken stage.next
      refine ⟨⟨⟨named.names, named.fresh, fun file old => ?_, ?_⟩, stage.temporary_eq,
        stage.linked_eq⟩, stage.next, Function.update_self .., trivial⟩
      · have apart : file ≠ machine.nextFile := by have := stage.next; omega
        exact (Function.update_of_ne apart _ _).trans (stage.files file old)
      · exact stage.next.trans (Nat.le_succ _)

/-- The directory has the temporary file and the target, both for the same text. -/
structure BothNames (before : Machine) (name target : Str) (file : Nat) (linked : Bool)
    (text : List UInt8) (machine : Machine) : Prop
    extends Stage before [(name, file), (target, file)] (some name) linked machine where
  apart : name ≠ target
  holdsText : machine.files file = text

theorem BothNames.call {target : Str} {text : List UInt8} {linked : Bool} (machine : Machine)
    (held : BothNames before name target file linked text machine) :
    BothNames before name target file linked text { machine with calls := machine.calls + 1 } :=
  ⟨held.toStage.call, held.apart, held.holdsText⟩

theorem link_triple (target : Str) {text : List UInt8} :
    Triple (Written before name file text) (platform.link name target)
      (fun _ => BothNames before name target file false text)
      fun exception machine => IsOsError exception ∧ Unlinked before name file machine := by
  have calling : Triple (Written before name file text) platform.call
      (fun _ => Written before name file text)
      fun exception machine => IsOsError exception ∧ Unlinked before name file machine :=
    (call_triple Written.call).weaken (fun _ written => written) (fun _ _ written => written)
      fun _ _ raised => ⟨raised.1, raised.2.toStage⟩
  apply calling.bind
  intro _ machine written
  have source := (written.names name file).mpr (.inr List.mem_cons_self)
  cases taken : machine.directory.find target with
  | some other =>
      simp only [taken, source]
      exact ⟨⟨_, rfl⟩, written.toStage⟩
  | none =>
      simp only [taken, source]
      have named := written.toAdded.name taken written.new
      refine ⟨⟨⟨named.names, named.fresh, named.files, named.next⟩, written.temporary_eq,
        written.linked_eq⟩, ?_, ?_⟩
      · rintro rfl
        rw [source] at taken
        cases taken
      · have text_eq := written.text_eq
        rwa [written.flushed, List.append_nil] at text_eq

/-- What the handler may find. -/
inductive Caught (before : Machine) (target : Str) (exception : BundleError) (machine : Machine) :
    Prop where
  | unmade (definite : Definite exception) (stage : Stage before [] none false machine)
  | unlinked (definite : Definite exception) (name : Str) (file : Nat)
      (stage : Unlinked before name file machine)
  | linked (raised : IsOsError exception) (name : Str) (file : Nat) (apart : name ≠ target)
      (stage : Stage before [(name, file), (target, file)] (some name) true machine)

/-- The target is published, and the temporary file is still there. -/
def Finished (before : Machine) (target : Str) (text : List UInt8) (machine : Machine) : Prop :=
  ∃ name file, BothNames before name target file true text machine

theorem openStream_triple {text : List UInt8} : Triple (Writing before name file text)
    platform.openStream (fun _ => Writing before name file text)
    fun exception machine => Definite exception ∧ Unlinked before name file machine := by
  have calling := @call_triple platform _ (@Writing.call before name file text)
  have closing : Triple (Writing before name file text) platform.call
      (fun _ => Writing before name file text)
      fun exception machine => Definite exception ∧ Unlinked before name file machine :=
    calling.weaken (fun _ writing => writing) (fun _ _ writing => writing)
      fun _ _ raised => ⟨raised.1.definite, raised.2.toStage⟩
  apply (calling.bind fun _ => calling).handle
  intro exception machine caught
  exact (closing.bind fun _ => Triple.throw exception fun _ writing =>
    ⟨caught.1.definite, writing.toStage⟩) machine caught.2

theorem publishBody_triple (target : Str) (pieces : List (Option Str)) :
    Triple (Stage before [] none false) (platform.publishBody target pieces)
      (fun _ machine => ∃ text : {text // bundleText pieces = some text},
        Finished before target (encodeUtf8 text) machine) (Caught before target) := by
  apply Triple.bind ((@mkstemp_triple platform before).weaken (fun _ stage => stage)
    (fun _ _ made => made) fun _ _ raised => .unmade raised.1.definite raised.2)
  rintro ⟨file, name⟩
  have writingEnds : Triple (Writing before name file [])
      (cleanup (platform.writeStream file pieces) fun _ => platform.closeStream file)
      (fun _ machine => ∃ text : {text // bundleText pieces = some text},
        Written before name file (encodeUtf8 text) machine)
      fun exception machine => Definite exception ∧ Unlinked before name file machine := by
    apply (writeStream_triple pieces).cleanup
    · intro _
      apply Triple.of_exists
      intro text
      exact closeStream_written.weaken (fun _ written => written)
        (fun _ _ written => ⟨text, written⟩) fun _ _ raised => raised
    · intro exception machine caught
      have new := (caught.2.fresh (name, file) List.mem_cons_self).2
      exact (closeStream_stage new).weaken (fun _ stage => stage)
        (fun _ _ stage => ⟨caught.1, stage⟩) (fun _ _ raised => raised) machine caught.2
  have unlinked : ∀ exception machine,
      Definite exception ∧ Unlinked before name file machine →
        Caught before target exception machine :=
    fun exception machine raised => .unlinked raised.1 name file raised.2
  apply Triple.bind (Triple.modify (Writing before name file []) _ _)
  · intro _
    apply Triple.bind (openStream_triple.weaken (fun _ writing => writing)
      (fun _ _ writing => writing) unlinked)
    intro _
    apply Triple.bind (writingEnds.weaken (fun _ writing => writing)
      (fun _ _ written => written) unlinked)
    intro _
    apply Triple.of_exists
    intro text
    apply Triple.bind ((link_triple target).weaken (fun _ written => written)
      (fun _ _ held => held) fun exception machine raised =>
        unlinked exception machine ⟨raised.1.definite, raised.2⟩)
    intro _
    apply Triple.bind
      (Triple.modify (BothNames before name target file true (encodeUtf8 text)) _ _)
    · intro _
      apply (syncDirectory_triple BothNames.call).weaken (fun _ held => held)
      · exact fun _ _ held => ⟨text, name, file, held⟩
      · exact fun _ _ raised => .linked raised.1 name file raised.2.apart raised.2.toStage
    · intro machine held
      exact ⟨⟨held.of_same rfl rfl rfl, held.temporary_eq, rfl⟩, held.apart, held.holdsText⟩
  · rintro machine ⟨stage, new, blank, buffer⟩
    refine ⟨⟨stage.of_same rfl rfl rfl, rfl, stage.linked_eq⟩, new, ?_⟩
    rw [blank, buffer]
    rfl

/-! ### The handler and the final block -/

/-- What the final block may find. -/
inductive Settled (before : Machine) (exception : BundleError) (machine : Machine) : Prop where
  | unmade (definite : Definite exception) (stage : Stage before [] none false machine)
  | removable (definite : Definite exception) (name : Str) (file : Nat) (linked : Bool)
      (stage : Stage before [(name, file)] (some name) linked machine)
  | uncertain (reason : Str) (same : exception = .uncertain reason) (name : Str) (file : Nat)
      (added : List (Str × Nat)) (mine : (name, file) ∈ added) (linked : Bool)
      (stage : Stage before added (some name) linked machine)

theorem rollback_triple {target : Str} (apart : name ≠ target) :
    Triple (Stage before [(name, file), (target, file)] (some name) true)
      (platform.rollback target) (fun _ => Stage before [(name, file)] (some name) true)
      (Settled before) := by
  have removed : [(name, file), (target, file)].filter (·.1 ≠ target) = [(name, file)] := by
    simp [apart]
  have unlinking : Triple (Stage before [(name, file), (target, file)] (some name) true)
      (platform.unlink target) (fun _ => Stage before [(name, file)] (some name) true)
      fun exception machine => IsOsError exception ∧
        ∃ added, (name, file) ∈ added ∧ Stage before added (some name) true machine := by
    have unlinking := @unlink_triple platform before
      [(name, file), (target, file)] (some name) true (fun _ => True) target file (by simp)
    rw [removed] at unlinking
    exact unlinking.weaken (fun _ stage => ⟨stage, trivial⟩) (fun _ _ stage => stage.1)
      fun _ _ raised => ⟨raised.1, _, List.mem_cons_self, raised.2⟩
  have syncing := (@syncDirectory_triple platform _
      (@Stage.call before [(name, file)] (some name) true)).weaken (fun _ stage => stage)
    (fun _ _ stage => stage) fun exception machine raised =>
      (⟨raised.1, _, List.mem_cons_self, raised.2⟩ : IsOsError exception ∧
        ∃ added, (name, file) ∈ added ∧ Stage before added (some name) true machine)
  apply (unlinking.bind fun _ => syncing).handle
  rintro exception machine ⟨⟨error, rfl⟩, added, mine, stage⟩
  exact .uncertain _ rfl name file added mine true stage

/-- The handler raises in any case. -/
theorem publishHandler_triple (target : Str) (exception : BundleError)
    {after : PUnit → Machine → Prop} :
    Triple (Caught before target exception) (platform.publishHandler target exception) after
      (Settled before) := by
  cases exception with
  | os error =>
      apply Triple.get_bind
      rintro _ machine ⟨caught, rfl⟩
      have definite : ∀ reason, Definite (.incomplete reason) := by rintro reason _ ⟨⟩
      rcases caught with ⟨-, stage⟩ | ⟨-, name, file, stage⟩ | ⟨-, name, file, apart, stage⟩
      · rw [stage.linked_eq]
        exact .unmade (definite _) stage
      · rw [stage.linked_eq]
        exact .removable (definite _) name file false stage
      · rw [stage.linked_eq]
        exact ((rollback_triple apart).bind fun _ => Triple.throw _ fun _ stage =>
          .removable (definite _) name file true stage) machine stage
  | incomplete reason | uncertain reason | keyError | valueError =>
      apply Triple.throw
      intro machine caught
      rcases caught with ⟨definite, stage⟩ | ⟨definite, name, file, stage⟩ | ⟨⟨_, same⟩, _⟩
      · exact .unmade definite stage
      · exact .removable definite name file false stage
      · cases same

/-- The temporary file is removed, or the directory keeps what it has. -/
theorem removal_triple (holds : (Nat → List UInt8) → Prop) (mine : (name, file) ∈ added) :
    Triple
      (fun machine => Stage before added (some name) linked machine ∧ holds machine.files)
      (do platform.unlink name; platform.syncDirectory)
      (fun _ machine => Added before (added.filter (·.1 ≠ name)) machine ∧ holds machine.files)
      fun exception machine => IsOsError exception ∧ ∃ added, Added before added machine := by
  have unlinking := (@unlink_triple platform before added (some name) linked holds name file
    mine).weaken (fun _ held => held) (fun _ _ held => (⟨held.1.toAdded, held.2⟩ :
      Added before (added.filter (·.1 ≠ name)) _ ∧ holds _)) fun exception machine raised =>
        (⟨raised.1, added, raised.2.toAdded⟩ :
          IsOsError exception ∧ ∃ added, Added before added machine)
  apply unlinking.bind
  intro _
  apply (syncDirectory_triple fun machine held => ?_).weaken (fun _ held => held)
    (fun _ _ held => held) fun _ _ raised => ⟨raised.1, _, raised.2.1⟩
  exact ⟨held.1.of_same rfl rfl rfl, held.2⟩

theorem finally_returned {target : Str} {text : List UInt8} :
    Triple (Finished before target text) (platform.publishFinally none)
      (fun _ => Published before target text)
      fun exception machine => (∃ reason, exception = .uncertain reason) ∧
        ∃ added, Added before added machine := by
  apply Triple.get_bind
  rintro _ machine ⟨⟨name, file, held⟩, rfl⟩
  rw [held.temporary_eq]
  have removed : [(name, file), (target, file)].filter (·.1 ≠ name) = [(target, file)] := by
    simp [held.apart.symm]
  have removing := @removal_triple platform before [(name, file), (target, file)] true name file
    (fun files => files file = text) List.mem_cons_self
  rw [removed] at removing
  have published := removing.weaken (fun _ held => held)
    (fun _ _ held => (⟨file, held.1, held.2⟩ : Published before target text _))
    fun _ _ raised => raised
  refine (published.handle ?_) machine ⟨held.toStage, held.holdsText⟩
  rintro exception machine ⟨⟨error, rfl⟩, left⟩
  exact ⟨⟨_, rfl⟩, left⟩

theorem finally_raised (exception : BundleError) :
    Triple (Settled before exception) (platform.publishFinally (some exception))
      (fun _ machine => (Definite exception ∧ Added before [] machine) ∨
        (∃ reason, exception = .uncertain reason) ∧ ∃ added, Added before added machine)
      fun exception machine => (∃ reason, exception = .uncertain reason) ∧
        ∃ added, Added before added machine := by
  apply Triple.get_bind
  rintro _ machine ⟨settled, rfl⟩
  rcases settled with ⟨definite, stage⟩ | ⟨definite, name, file, linked, stage⟩ |
    ⟨reason, rfl, name, file, added, mine, linked, stage⟩
  · rw [stage.temporary_eq]
    exact .inl ⟨definite, stage.toAdded⟩
  · rw [stage.temporary_eq]
    have removed : [(name, file)].filter (·.1 ≠ name) = [] := by simp
    have removing := @removal_triple platform before [(name, file)] linked name file
      (fun _ => True) List.mem_cons_self
    rw [removed] at removing
    have cleaned := removing.weaken (fun _ held => held)
      (fun _ machine held => (.inl ⟨definite, held.1⟩ : (Definite exception ∧
        Added before [] machine) ∨ (∃ reason, exception = .uncertain reason) ∧
          ∃ added, Added before added machine)) fun _ _ raised => raised
    refine (cleaned.handle ?_) machine ⟨stage, trivial⟩
    rintro raised machine ⟨⟨error, rfl⟩, left⟩
    cases exception with
    | uncertain reason => exact absurd rfl (definite reason)
    | incomplete | os | keyError | valueError => exact ⟨⟨_, rfl⟩, left⟩
  · rw [stage.temporary_eq]
    have cleaned := (@removal_triple platform before added linked name file (fun _ => True)
      mine).weaken (fun _ held => held) (fun _ machine held =>
        (.inr ⟨⟨reason, rfl⟩, _, held.1⟩ : (Definite (.uncertain reason) ∧
          Added before [] machine) ∨ (∃ other, BundleError.uncertain reason = .uncertain other) ∧
            ∃ added, Added before added machine)) fun _ _ raised => raised
    refine (cleaned.handle ?_) machine ⟨stage, trivial⟩
    rintro raised machine ⟨⟨error, rfl⟩, left⟩
    exact .inr ⟨⟨reason, rfl⟩, left⟩

theorem publish_triple (target : Str) (pieces : List (Option Str)) :
    Triple (Added before []) (platform.publish target pieces)
      (fun _ machine => ∃ text : {text // bundleText pieces = some text},
        Published before target (encodeUtf8 text) machine)
      (fun exception machine => (Definite exception ∧ Added before [] machine) ∨
        (∃ reason, exception = .uncertain reason) ∧ ∃ added, Added before added machine) := by
  apply Triple.bind (Triple.modify (Stage before [] none false) _ _)
  · intro _
    have handled := (@publishBody_triple platform before target pieces).handle
      fun exception => @publishHandler_triple platform before target exception _
    apply handled.cleanup
    · intro _
      apply Triple.of_exists
      intro text
      exact finally_returned.weaken (fun _ finished => finished)
        (fun _ _ published => ⟨text, published⟩) fun _ _ raised => .inr raised
    · intro exception
      exact (finally_raised exception).weaken (fun _ settled => settled) (fun _ _ left => left)
        fun _ _ raised => .inr raised
  · intro machine held
    exact ⟨held.of_same rfl rfl rfl, rfl, rfl⟩

end Stages

/-! ### Writing a bundle -/

/-- A failure before a file is made leaves the directory as it is. -/
def Untouched (before : Machine) (exception : BundleError) (machine : Machine) : Prop :=
  Definite exception ∧ Added before [] machine

theorem lstat_triple (name : Str) : Triple (Added before []) (platform.lstat name)
    (fun _ => Added before [])
    fun exception machine => IsOsError exception ∧ Added before [] machine := by
  apply Triple.bind (call_triple fun machine held => held.of_same rfl rfl rfl)
  intro _ machine held
  cases found : machine.directory.find name with
  | none =>
      simp only [found]
      exact ⟨⟨_, rfl⟩, held⟩
  | some file =>
      simp only [found]
      exact held

theorem untouched_of_incomplete {reason : Str} (held : Added before [] machine) :
    Untouched before (.incomplete reason) machine := ⟨by rintro _ ⟨⟩, held⟩

theorem inspectParent_triple : Triple (Added before []) platform.inspectParent
    (fun _ => Added before []) (Untouched before) := by
  unfold Platform.inspectParent
  split
  · exact Triple.throw _ fun _ held => ⟨IsOsError.definite ⟨_, rfl⟩, held⟩
  · split
    · exact Triple.pure _ fun _ held => held
    · exact Triple.throw _ fun _ held => untouched_of_incomplete held

theorem targetExists_triple (target : Str) : Triple (Added before [])
    (platform.targetExists target) (fun _ => Added before []) (Untouched before) := by
  have looking := (@lstat_triple platform before target).weaken
    (fun _ held => held) (fun _ _ held => held)
    fun _ _ raised => (⟨raised.1.definite, raised.2⟩ : Untouched before _ _)
  apply Triple.handle (inspectParent_triple.bind fun _ => looking.bind fun _ =>
    Triple.pure true fun _ held => held)
  intro exception
  split
  · split
    · exact Triple.pure _ fun _ untouched => untouched.2
    · exact Triple.throw _ fun _ untouched => untouched_of_incomplete untouched.2
  · exact Triple.throw _ fun _ untouched => untouched_of_incomplete untouched.2
  · exact Triple.throw _ fun _ untouched => untouched

theorem validateBundleTarget_triple (isAbsolute : Bool) (target : Str) :
    Triple (Added before []) (platform.validateBundleTarget isAbsolute target)
      (fun _ => Added before []) (Untouched before) := by
  unfold Platform.validateBundleTarget
  split
  · apply (targetExists_triple target).bind
    intro found
    split
    · exact Triple.throw _ fun _ held => untouched_of_incomplete held
    · exact Triple.pure _ fun _ held => held
  · exact Triple.throw _ fun _ held => untouched_of_incomplete held

theorem bundleScope_definite {summary : Dict} {suppliedFileCount : Option Int}
    {exception : BundleError} (failed : bundleScope summary suppliedFileCount = .error exception) :
    Definite exception := by
  unfold bundleScope at failed
  repeat' split at failed
  all_goals
    cases failed
    try rintro _ ⟨⟩

theorem prepareBundle_definite {toolVersion : Option Str} {evidence : Evidence}
    {arguments : BundleArguments} {exception : BundleError}
    (failed : prepareBundle toolVersion evidence arguments = .error exception) :
    Definite exception := by
  unfold prepareBundle at failed
  split at failed
  · cases failed
    rintro _ ⟨⟩
  split at failed
  · cases failed
    rintro _ ⟨⟩
  · cases scoping : bundleScope arguments.summary arguments.suppliedFileCount with
    | ok scope =>
        rw [scoping] at failed
        cases failed
    | error reason =>
        rw [scoping] at failed
        cases failed
        exact bundleScope_definite scoping

theorem writeBundle_triple (floatRepr : PyFloat → Str) (toolVersion : Option Str)
    (isAbsolute : Bool) (target : Str) (evidence : Evidence) (arguments : BundleArguments) :
    Triple (Added before [])
      (writeBundle platform floatRepr toolVersion isAbsolute target evidence arguments)
      (fun _ machine => ∃ header content text,
        prepareBundle toolVersion evidence arguments = .ok (header, content) ∧
        bundleText (bundlePieces floatRepr header content) = some text ∧
        Published before target (encodeUtf8 text) machine)
      (fun exception machine => Untouched before exception machine ∨
        (∃ reason, exception = .uncertain reason) ∧ ∃ added, Added before added machine) := by
  have validating := (@validateBundleTarget_triple platform before isAbsolute target).weaken
    (fun _ held => held) (fun _ _ held => held) fun exception machine untouched =>
      (.inl untouched : Untouched before exception machine ∨
        (∃ reason, exception = .uncertain reason) ∧ ∃ added, Added before added machine)
  apply validating.bind
  intro _
  cases prepared : prepareBundle toolVersion evidence arguments with
  | error exception =>
      exact fun _ held => .inl ⟨prepareBundle_definite prepared, held⟩
  | ok bundle =>
      obtain ⟨header, content⟩ := bundle
      exact (publish_triple target (bundlePieces floatRepr header content)).weaken
        (fun _ held => held) (fun _ machine held =>
          held.elim fun text published => ⟨header, content, text, rfl, text.2, published⟩)
        fun _ _ raised => raised

end Atomic

/-- What a call may leave behind: the target with a complete text and nothing else when it returns,
nothing when it raises `IncompleteEvidence` but not its subclass, and the names and bytes of before
in any case. -/
def AtomicOutcome (before : Machine) (target : Str) (complete : List UInt8 → Prop) :
    EStateM.Result BundleError Machine PUnit → Prop
  | .ok _ machine => Kept before machine ∧ ∃ file, complete (machine.files file) ∧
      before.directory.find target = none ∧ ∀ name, machine.directory.find name =
        if name = target then some file else before.directory.find name
  | .error exception machine => Kept before machine ∧ ((∃ reason, exception = .incomplete reason) →
      ∀ name, machine.directory.find name = before.directory.find name)

theorem Added.find_eq {before machine : Machine} (held : Added before [] machine) (name : Str) :
    machine.directory.find name = before.directory.find name := by
  apply Option.ext
  intro file
  rw [held.names name file]
  simp

theorem Added.find_one {before machine : Machine} {target : Str} {file : Nat}
    (held : Added before [(target, file)] machine) (name : Str) : machine.directory.find name =
      if name = target then some file else before.directory.find name := by
  apply Option.ext
  intro other
  rw [held.names name other]
  have absent := (held.fresh (target, file) List.mem_cons_self).1
  by_cases same : name = target
  · simp [same, absent, eq_comm]
  · simp [same]

/-- A directory with one file. -/
def occupied : Machine where
  directory := Keyed.empty.upsert (lit "old") fun _ => 0
  files _ := lit "old" |>.map UInt8.ofNat
  nextFile := 1
  buffer := []
  calls := 0
  temporary := none
  linked := false

/-- A platform on which the listed calls fail. -/
def failing (calls : List Nat) : Platform where
  faults number := if number ∈ calls then some .other else none
  drained _ := 3
  temporaryName := lit ".goggles-investigation-x.tmp"
  parent := .ok ⟨true, true, true⟩
  parentExists := true

/-- The arguments of an empty bundle. -/
def emptyArguments : BundleArguments :=
  ⟨lit "ab", [(lit "source", .str "jsonl")], 0, 1, some 1⟩

/-- An empty bundle is written to `new` where the listed calls fail. -/
def writeUnder (calls : List Nat) : EStateM.Result BundleError Machine PUnit :=
  writeBundle (failing calls) (fun _ => []) (some (lit "1")) true (lit "new") Evidence.empty
    emptyArguments occupied

/-- What was raised, and the names that are left. -/
def leftNames : EStateM.Result BundleError Machine PUnit → Option BundleError × List Str
  | .ok _ machine => (none, machine.directory.entries.map Prod.fst)
  | .error exception machine => (some exception, machine.directory.entries.map Prod.fst)

/-- A bundle is published atomically, for every schedule of failing calls. -/
theorem writeBundle_atomic (platform : Platform) (floatRepr : PyFloat → Str)
    (toolVersion : Option Str) (isAbsolute : Bool) (target : Str) (evidence : Evidence)
    (arguments : BundleArguments) (before : Machine) (sound : before.Sound) :
    AtomicOutcome before target
      (fun bytes => ∃ header content text,
        prepareBundle toolVersion evidence arguments = .ok (header, content) ∧
          bundleText (bundlePieces floatRepr header content) = some text ∧
          bytes = encodeUtf8 text)
      (writeBundle platform floatRepr toolVersion isAbsolute target evidence arguments before) := by
  have start : Added before [] before := ⟨by simp, by simp, fun _ _ => rfl, le_rfl⟩
  have result := @writeBundle_triple platform before floatRepr toolVersion isAbsolute target
    evidence arguments before start
  cases ran : writeBundle platform floatRepr toolVersion isAbsolute target evidence arguments
      before with
  | ok value machine =>
      rw [ran] at result
      obtain ⟨header, content, text, prepared, complete, file, held, same⟩ := result
      exact ⟨held.kept sound, file, ⟨header, content, text, prepared, complete, same⟩,
        (held.fresh (target, file) List.mem_cons_self).1, held.find_one⟩
  | error exception machine =>
      rw [ran] at result
      rcases result with ⟨-, held⟩ | ⟨⟨reason, rfl⟩, added, held⟩
      · exact ⟨held.kept sound, fun _ => held.find_eq⟩
      · refine ⟨held.kept sound, ?_⟩
        rintro ⟨other, ⟨⟩⟩

theorem writeBundle_atomic_unsynced :
    AtomicOutcome occupied (lit "new")
        (fun bytes => ∃ header content text,
          prepareBundle (some (lit "1")) Evidence.empty emptyArguments = .ok (header, content) ∧
            bundleText (bundlePieces (fun _ => []) header content) = some text ∧
            bytes = encodeUtf8 text)
        (writeUnder [15]) ∧
      leftNames (writeUnder []) = (none, [lit "old", lit "new"]) ∧
      leftNames (writeUnder [15]) = (some (.incomplete "bundle_write_failed"), [lit "old"]) ∧
      leftNames (writeUnder [15, 17]) =
        (some (.uncertain "bundle_publication_uncertain"), [lit "old", lit "new"]) := by
  have sound : occupied.Sound := by
    intro name file found
    simp only [occupied, Keyed.find_upsert, Keyed.find_empty] at found
    split at found
    · cases found
      decide
    · cases found
  refine ⟨?_, by decide +kernel, by decide +kernel, by decide +kernel⟩
  unfold writeUnder
  with_reducible
    exact writeBundle_atomic (failing [15]) (fun _ => []) (some (lit "1")) true (lit "new")
      Evidence.empty emptyArguments occupied sound

end Goggles
