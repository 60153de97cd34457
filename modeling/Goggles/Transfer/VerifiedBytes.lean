/-
Module: Goggles.Transfer.VerifiedBytes
Purpose: How the body of an upload is read and refused: what is returned is complete, as far as the
  bytes that were handed over tell.
Trusted boundary: forensics/views.py, `verified_audit_bytes` and what it calls;
  forensics/request_body.py, `declared_content_length`, `counted_body_bytes`.  What Django reads for
  `request.FILES` and `request.body` is a program that calls the stream, which turns an error of the
  stream into `UnreadablePostError`; header texts are Latin-1, as WSGI has them
Main exports: ByteSource, ReadProgram, Django, DjangoReads, verifiedAuditBytes,
  verifiedAuditBytes_complete
-/
import Goggles.Python.Dumps
import Goggles.Transfer.ProgressInput

namespace Goggles

/-! ### Streams -/

/-- A stream, whose calls return consecutive pieces of what it has until it ends or fails. -/
structure ByteSource (σ ε : Type) where
  call : σ → StreamCall → Except ε (StreamReply × σ)
  remaining : σ → List UInt8
  pieces : ∀ {state next : σ} {request : StreamCall} {reply : StreamReply},
    call state request = .ok (reply, next) → reply.data ++ remaining next = remaining state

theorem memoryCall_append (body : List UInt8) (call : StreamCall) :
    (memoryCall body call).1.data ++ (memoryCall body call).2 = body := by
  cases call with
  | read | readline => exact memoryRead_append
  | readlines | iterate => exact memoryReadlines_append
  | next => exact memoryNext_append

/-- The input that times its reads. -/
def progressSource (env : TransferEnv) : ByteSource ProgressInput TimeoutError where
  call := ProgressInput.call env
  remaining input := input.stream.remaining
  pieces returned := by
    have spec := ProgressInput.call_spec returned
    rw [Prod.ext_iff] at spec
    exact (congrArg₂ (· ++ ·) (congrArg StreamReply.data spec.1) spec.2).trans
      (memoryCall_append _ _)

/-! ### What Django reads -/

/-- What Django raises for a body. -/
inductive DjangoError where
  | tooManyFilesSent
  | tooManyFieldsSent
  | requestDataTooBig
  | multiPartParserError
  | unreadablePostError
  | other
deriving Repr, DecidableEq

/-- A program that calls a stream before it is done. -/
inductive ReadProgram (α : Type) where
  | done (value : α)
  | call (request : StreamCall) (resume : StreamReply → ReadProgram α)

/-- What a program leaves: its result, the counted stream, and the bytes it was handed. -/
structure Handed (σ α : Type) where
  result : Except DjangoError α
  input : CountingInput σ
  bytes : List UInt8

section Run

variable {σ ε α : Type} (source : ByteSource σ ε)

/-- A program on a counted stream. -/
def ReadProgram.run (input : CountingInput σ) :
    ReadProgram (Except DjangoError α) → Handed σ α
  | .done result => ⟨result, input, []⟩
  | .call request resume =>
      match input.call source.call request with
      | .error _ => ⟨.error .unreadablePostError, input, []⟩
      | .ok (reply, next) =>
          let rest := (resume reply).run next
          { rest with bytes := reply.data ++ rest.bytes }

/-- The bytes that were handed over come first in the stream, and were counted. -/
structure Handed.From (handed : Handed σ α) (input : CountingInput σ) : Prop where
  first : handed.bytes ++ source.remaining handed.input.stream = source.remaining input.stream
  counted : handed.input.bytesRead = input.bytesRead + handed.bytes.length

theorem ReadProgram.run_from (program : ReadProgram (Except DjangoError α))
    (input : CountingInput σ) : (program.run source input).From source input := by
  induction program generalizing input with
  | done result => exact ⟨rfl, rfl⟩
  | call request resume inductionHypothesis =>
      rw [run]
      cases called : input.call source.call request with
      | error exception => exact ⟨rfl, rfl⟩
      | ok answer =>
          obtain ⟨reply, next⟩ := answer
          have later := inductionHypothesis reply next
          unfold CountingInput.call at called
          split at called
          · cases called
          next found stream returned =>
          cases called
          constructor
          · rw [← source.pieces returned, ← later.first]
            exact List.append_assoc ..
          · change ((resume reply).run source _).input.bytesRead = _
            rw [later.counted, List.length_append, Nat.add_assoc]

end Run

/-! ### Requests -/

/-- What is read of a request: its content type, the `Content-Length` header, and whether a counter
is in `META`. -/
structure UploadRequest where
  contentType : Str
  contentLength : Option Str
  counted : Bool
deriving Repr, DecidableEq

/-- `is_multipart_request`. -/
def UploadRequest.isMultipart (request : UploadRequest) : Bool :=
  (lit "multipart/").isPrefixOf request.contentType

/-- The value of decimal digits, single underscores between them; `seen` is that of the digits
before. -/
def intDigits (seen : Option Nat) : Str → Option Nat
  | [] => seen
  | char :: rest =>
      if 0x30 ≤ char ∧ char ≤ 0x39 then intDigits (some (seen.getD 0 * 10 + (char - 0x30))) rest
      else if char = 0x5f ∧ seen.isSome ∧ rest.head?.any (fun next => 0x30 ≤ next ∧ next ≤ 0x39) then
        intDigits seen rest
      else none

/-- `int(text)` of Latin-1 text; `none` is the `ValueError`. -/
def parseInt (text : Str) : Option Int :=
  let trimmed := strip text
  let digits := if trimmed.head?.any (fun sign => sign = 0x2b ∨ sign = 0x2d) then trimmed.tail
    else trimmed
  if intMaxStrDigits < (digits.filter (· ≠ 0x5f)).length then none
  else
    (intDigits none digits).map fun value =>
      if trimmed.head? = some 0x2d then -(value : Int) else value

/-- `declared_content_length`. -/
def declaredContentLength (request : UploadRequest) : Option Nat :=
  match request.contentLength with
  | none => none
  | some raw =>
      if raw = [] then none
      else
        match parseInt raw with
        | none => none
        | some value => if value < 0 then none else some value.toNat

/-- A file that was uploaded: its bytes, and the attribute `size`, if it has one. -/
structure UploadedFile where
  content : List UInt8
  size : Option Nat
deriving Repr, DecidableEq

/-- What Django reads for `request.FILES`, the files with their names, and then for
`request.body`. -/
structure Django where
  files : UploadRequest → ReadProgram (Except DjangoError (List (Str × UploadedFile)))
  body : UploadRequest → ReadProgram (Except DjangoError (List UInt8))

/-! ### Reading -/

/-- `read_upload_bytes`. -/
def readUploadBytes (maxDumpBytes : Nat) (upload : UploadedFile) :
    Except DjangoError (List UInt8) :=
  if upload.size.any (maxDumpBytes < ·) then .error .requestDataTooBig
  else
    let data := upload.content.take (maxDumpBytes + 1)
    if maxDumpBytes < data.length then .error .requestDataTooBig else .ok data

/-- `request.FILES.get(name)`. -/
def getFile (files : List (Str × UploadedFile)) (name : Str) : Option UploadedFile :=
  ((files.filter (·.1 = name)).getLast?).map Prod.snd

section Verify

variable {σ ε : Type} (source : ByteSource σ ε) (django : Django) (maxDumpBytes : Nat)

/-- What Django leaves when it has read the files of a request. -/
def Django.loaded (request : UploadRequest) (stream : σ) :
    Handed σ (List (Str × UploadedFile)) :=
  (django.files request).run source (.new stream)

/-- What Django leaves when it has then read the body. -/
def Django.read (request : UploadRequest) (stream : σ) : Handed σ (List UInt8) :=
  (django.body request).run source (django.loaded source request stream).input

/-- `audit_bytes_from_request`, on the counted stream. -/
def auditBytesFromRequest (request : UploadRequest) (stream : σ) : Handed σ (List UInt8) :=
  let loaded := django.loaded source request stream
  match loaded.result with
  | .error exception => { loaded with result := .error exception }
  | .ok [] =>
      if request.isMultipart then { loaded with result := .ok [] }
      else
        let body := django.read source request stream
        { body with bytes := loaded.bytes ++ body.bytes }
  | .ok ((name, file) :: others) =>
      let files := (name, file) :: others
      if files.length ≠ 1 then { loaded with result := .error .tooManyFilesSent }
      else
        let upload := ((getFile files (lit "audit_log")).or (getFile files (lit "dump"))).or
          (getFile files name)
        { loaded with result := readUploadBytes maxDumpBytes (upload.getD file) }

/-- `received_body_bytes`. -/
def receivedBodyBytes (request : UploadRequest) (input : CountingInput σ)
    (auditBytes : List UInt8) : Option Nat :=
  if request.counted then some input.bytesRead
  else if request.isMultipart then none
  else some auditBytes.length

/-- `UploadRefused`. -/
structure UploadRefused where
  reason : Str
  status : Nat
  error : Str
  declared : Option Nat
  received : Option Nat
deriving Repr, DecidableEq

def UPLOAD_TOO_LARGE_ERROR : Str := "audit log exceeds maximum upload size"

def UPLOAD_LENGTH_REQUIRED_ERROR : Str :=
  lit "Content-Length header is required " ++ lit "for audit log uploads"

def UPLOAD_INCOMPLETE_BODY_ERROR : Str := "incomplete request body"

def UPLOAD_MALFORMED_BODY_ERROR : Str := "request body could not be parsed"

/-- What `verified_audit_bytes` raises: `UploadRefused`, or what Django raised and it does not
catch. -/
inductive UploadError where
  | refused (refusal : UploadRefused)
  | uncaught (exception : DjangoError)
deriving Repr, DecidableEq

/-- `counted_body_bytes`. -/
def countedBodyBytes (request : UploadRequest) (input : CountingInput σ) : Option Nat :=
  if request.counted then some input.bytesRead else none

/-- The `except` clauses around `audit_bytes_from_request`. -/
def refusalOf (request : UploadRequest) (declared : Nat) (input : CountingInput σ) :
    DjangoError → UploadError
  | .tooManyFilesSent | .tooManyFieldsSent =>
      .refused ⟨"too_many_parts", 413, UPLOAD_TOO_LARGE_ERROR, declared,
        countedBodyBytes request input⟩
  | .requestDataTooBig =>
      .refused ⟨"too_large", 413, UPLOAD_TOO_LARGE_ERROR, declared, countedBodyBytes request input⟩
  | .multiPartParserError =>
      .refused ⟨"malformed_body", 400, UPLOAD_MALFORMED_BODY_ERROR, declared,
        countedBodyBytes request input⟩
  | .unreadablePostError =>
      .refused ⟨"incomplete_body", 400, UPLOAD_INCOMPLETE_BODY_ERROR, declared, none⟩
  | .other => .uncaught .other

/-- `verified_audit_bytes`: what it returns or raises, and the bytes the stream handed over. -/
def verifiedAuditBytes (request : UploadRequest) (stream : σ) :
    Except UploadError (List UInt8) × List UInt8 :=
  match declaredContentLength request with
  | none =>
      (.error (.refused ⟨"length_required", 411, UPLOAD_LENGTH_REQUIRED_ERROR, none, none⟩), [])
  | some declared =>
      if !request.isMultipart && decide (maxDumpBytes < declared) then
        (.error (.refused ⟨"too_large", 413, UPLOAD_TOO_LARGE_ERROR, declared, none⟩), [])
      else
        let handed := auditBytesFromRequest source django maxDumpBytes request stream
        match handed.result with
        | .error exception => (.error (refusalOf request declared handed.input exception), handed.bytes)
        | .ok auditBytes =>
            if maxDumpBytes < auditBytes.length then
              (.error (.refused
                ⟨"too_large", 413, UPLOAD_TOO_LARGE_ERROR, declared, some auditBytes.length⟩),
                handed.bytes)
            else
              match receivedBodyBytes request handed.input auditBytes with
              | none => (.ok auditBytes, handed.bytes)
              | some received =>
                  if received < declared then
                    (.error (.refused
                      ⟨"incomplete_body", 400,
                        UPLOAD_INCOMPLETE_BODY_ERROR ++ lit ": received " ++ natText received ++
                          lit " of " ++ natText declared ++ lit " bytes",
                        declared, some received⟩),
                      handed.bytes)
                  else (.ok auditBytes, handed.bytes)

end Verify

/-! ### Completeness -/

section Complete

variable {σ ε : Type} (source : ByteSource σ ε) (django : Django)

/-- What is relied on in Django: it reads at most as much as was declared; only a multipart body has
files, and any other is what was handed over; and it raises what the code catches. -/
structure DjangoReads (request : UploadRequest) (stream : σ) : Prop where
  within : ∀ declared, declaredContentLength request = some declared →
    ((django.loaded source request stream).bytes ++
      (django.read source request stream).bytes).length ≤ declared
  unfiled : request.isMultipart = false → ∀ files,
    (django.loaded source request stream).result = .ok files → files = []
  whole : request.isMultipart = false → ∀ data,
    (django.read source request stream).result = .ok data →
      data = (django.loaded source request stream).bytes ++
        (django.read source request stream).bytes
  filesRaise : (django.loaded source request stream).result ≠ .error .other
  bodyRaises : (django.read source request stream).result ≠ .error .other

/-- A body that is returned is complete, and nothing but a refusal is raised: at least the declared
number of bytes was handed over, and a raw body is the declared bytes of the stream. -/
def CompleteOrRefused (maxDumpBytes : Nat) (request : UploadRequest) (body : List UInt8) :
    Except UploadError (List UInt8) × List UInt8 → Prop
  | (.ok auditBytes, handed) => handed <+: body ∧ auditBytes.length ≤ maxDumpBytes ∧
      ∃ declared, declaredContentLength request = some declared ∧ declared ≤ handed.length ∧
        (request.isMultipart = false →
          auditBytes = body.take declared ∧ auditBytes.length = declared)
  | (.error exception, _) => ∃ refusal, exception = .refused refusal

variable {source django} {maxDumpBytes : Nat} {request : UploadRequest} {stream : σ}

theorem readUploadBytes_raises {upload : UploadedFile} :
    readUploadBytes maxDumpBytes upload ≠ .error .other := by
  unfold readUploadBytes
  dsimp only
  split
  · rintro ⟨⟩
  · split <;> rintro ⟨⟩

/-- What is read of a request. -/
theorem auditBytesFromRequest_spec (reads : DjangoReads source django request stream) :
    let handed := auditBytesFromRequest source django maxDumpBytes request stream
    handed.From source (.new stream) ∧ handed.result ≠ .error .other ∧
      (request.isMultipart = false → ∀ data, handed.result = .ok data → data = handed.bytes) ∧
      ∀ declared, declaredContentLength request = some declared →
        handed.bytes.length ≤ declared := by
  have loadedFrom : (django.loaded source request stream).From source (.new stream) :=
    ReadProgram.run_from source _ _
  have readFrom : (django.read source request stream).From source
      (django.loaded source request stream).input := ReadProgram.run_from source _ _
  have within : ∀ declared, declaredContentLength request = some declared →
      (django.loaded source request stream).bytes.length ≤ declared := by
    intro declared found
    have bounded := reads.within declared found
    rw [List.length_append] at bounded
    omega
  intro handed
  cases found : (django.loaded source request stream).result with
  | error exception =>
      have same : handed = { django.loaded source request stream with result := .error exception } := by
        simp only [handed, auditBytesFromRequest, found]
      rw [same]
      refine ⟨⟨loadedFrom.first, loadedFrom.counted⟩, ?_, ?_, within⟩
      · rintro ⟨⟩
        exact reads.filesRaise found
      · rintro - data ⟨⟩
  | ok files =>
      cases files with
      | cons first others =>
          obtain ⟨name, file⟩ := first
          have multipart : request.isMultipart = true := by
            by_contra raw
            rw [Bool.not_eq_true] at raw
            cases reads.unfiled raw _ found
          have same : ∃ result, result ≠ .error .other ∧
              handed = { django.loaded source request stream with result := result } := by
            simp only [handed, auditBytesFromRequest, found]
            split
            · exact ⟨_, by rintro ⟨⟩, rfl⟩
            · exact ⟨_, readUploadBytes_raises, rfl⟩
          obtain ⟨result, raises, same⟩ := same
          rw [same]
          refine ⟨⟨loadedFrom.first, loadedFrom.counted⟩, raises, ?_, within⟩
          intro raw
          rw [multipart] at raw
          cases raw
      | nil =>
          cases multipart : request.isMultipart with
          | true =>
              have same : handed = { django.loaded source request stream with result := .ok [] } := by
                simp only [handed, auditBytesFromRequest, found, multipart, if_true]
              rw [same]
              exact ⟨⟨loadedFrom.first, loadedFrom.counted⟩, (by rintro ⟨⟩), nofun, within⟩
          | false =>
              have same : handed = { django.read source request stream with
                  bytes := (django.loaded source request stream).bytes ++
                    (django.read source request stream).bytes } := by
                simp only [handed, auditBytesFromRequest, found, multipart]
                rfl
              rw [same]
              refine ⟨⟨?_, ?_⟩, reads.bodyRaises, fun _ => reads.whole multipart, reads.within⟩
              · rw [← loadedFrom.first, ← readFrom.first]
                exact List.append_assoc ..
              · change (django.read source request stream).input.bytesRead = _
                rw [readFrom.counted, loadedFrom.counted, List.length_append, Nat.add_assoc]

/-- What Django does for a raw body that is no form: it reads no files, and the body in one call. -/
def rawDjango : Django where
  files _ := .done (.ok [])
  body request :=
    match declaredContentLength request with
    | none => .done (.ok [])
    | some declared => .call (.read (some declared)) fun reply => .done (.ok reply.data)

theorem djangoReads_rawDjango (env : TransferEnv) (request : UploadRequest)
    (stream : ProgressInput) : DjangoReads (progressSource env) rawDjango request stream := by
  have loaded : rawDjango.loaded (progressSource env) request stream =
      ⟨.ok [], .new stream, []⟩ := rfl
  cases found : declaredContentLength request with
  | none =>
      have read : rawDjango.read (progressSource env) request stream = ⟨.ok [], .new stream, []⟩ := by
        simp only [Django.read, rawDjango, found]
        rfl
      constructor
      · rw [found]
        rintro declared ⟨⟩
      · exact fun _ files same => (Except.ok.inj same).symm
      · rw [loaded, read]
        exact fun _ data same => (Except.ok.inj same).symm
      · rintro ⟨⟩
      · rw [read]
        rintro ⟨⟩
  | some declared =>
      have ran : rawDjango.read (progressSource env) request stream =
          ReadProgram.run (progressSource env) (.new stream)
            (.call (.read (some declared)) fun reply => .done (.ok reply.data)) := by
        simp only [Django.read, rawDjango, found]
        rfl
      rw [ReadProgram.run] at ran
      cases called : (CountingInput.new stream).call (progressSource env).call
          (.read (some declared)) with
      | error exception =>
          rw [called] at ran
          constructor
          · rw [loaded, ran]
            exact fun _ _ => Nat.zero_le _
          · exact fun _ files same => (Except.ok.inj same).symm
          · rw [ran]
            rintro - data ⟨⟩
          · rintro ⟨⟩
          · rw [ran]
            rintro ⟨⟩
      | ok answer =>
          obtain ⟨reply, next⟩ := answer
          rw [called] at ran
          have bounded : reply.data.length ≤ declared := by
            unfold CountingInput.call at called
            split at called
            · cases called
            next first after returned =>
            cases called
            have read : stream.call env (.read (some declared)) = .ok (reply, after) := returned
            have spec := ProgressInput.call_spec read
            have data : reply = .bytes (stream.stream.remaining.take declared) :=
              congrArg Prod.fst spec
            rw [data]
            exact List.length_take_le _ _
          constructor
          · rw [loaded, ran, found]
            rintro _ ⟨⟩
            simpa [ReadProgram.run] using bounded
          · exact fun _ files same => (Except.ok.inj same).symm
          · rw [loaded, ran]
            intro _ data same
            simpa [ReadProgram.run] using (Except.ok.inj same).symm
          · rintro ⟨⟩
          · rw [ran]
            rintro ⟨⟩

/-- A request that declares nine bytes of lines. -/
def nineBytes : UploadRequest := ⟨"application/x-ndjson", some (lit "9"), true⟩

/-- An upload is read completely or refused. -/
theorem verifiedAuditBytes_complete (source : ByteSource σ ε) (django : Django)
    (maxDumpBytes : Nat) (request : UploadRequest) (stream : σ)
    (reads : DjangoReads source django request stream)
    (shape : request.isMultipart = true → request.counted = true) :
    CompleteOrRefused maxDumpBytes request (source.remaining stream)
      (verifiedAuditBytes source django maxDumpBytes request stream) := by
  obtain ⟨handedFrom, raises, whole, within⟩ :=
    @auditBytesFromRequest_spec _ _ _ _ maxDumpBytes _ _ reads
  unfold verifiedAuditBytes
  split
  · exact ⟨_, rfl⟩
  next declared known =>
  split
  · exact ⟨_, rfl⟩
  dsimp only
  split
  · next exception raised =>
      cases exception with
      | other => exact absurd raised raises
      | tooManyFilesSent | tooManyFieldsSent | requestDataTooBig | multiPartParserError
      | unreadablePostError => exact ⟨_, rfl⟩
  next auditBytes returned =>
  split
  · exact ⟨_, rfl⟩
  next small =>
  have complete : declared ≤
        (auditBytesFromRequest source django maxDumpBytes request stream).bytes.length →
      CompleteOrRefused maxDumpBytes request (source.remaining stream)
        (.ok auditBytes,
          (auditBytesFromRequest source django maxDumpBytes request stream).bytes) := by
    intro enough
    refine ⟨⟨_, handedFrom.first⟩, Nat.le_of_not_lt small, declared, known, enough, fun raw => ?_⟩
    have length := Nat.le_antisymm (within declared known) enough
    rw [whole raw _ returned, ← length]
    refine ⟨?_, rfl⟩
    have first : (auditBytesFromRequest source django maxDumpBytes request stream).bytes ++
        source.remaining (auditBytesFromRequest source django maxDumpBytes request
          stream).input.stream = source.remaining stream := handedFrom.first
    rw [← first, List.take_left]
  have counted : (auditBytesFromRequest source django maxDumpBytes request stream).input.bytesRead =
      (auditBytesFromRequest source django maxDumpBytes request stream).bytes.length := by
    rw [handedFrom.counted]
    exact Nat.zero_add _
  -- What was received is the number of bytes that were handed over, by either account.
  have received : receivedBodyBytes request
      (auditBytesFromRequest source django maxDumpBytes request stream).input auditBytes =
        some (auditBytesFromRequest source django maxDumpBytes request stream).bytes.length := by
    unfold receivedBodyBytes
    by_cases installed : request.counted = true
    · rw [if_pos installed, counted]
    · have raw : request.isMultipart = false := by
        cases multipart : request.isMultipart with
        | false => rfl
        | true => exact absurd (shape multipart) installed
      rw [if_neg installed, raw, whole raw _ returned]
      rfl
  rw [received]
  dsimp only
  split
  · exact ⟨_, rfl⟩
  · next enough => exact complete (Nat.le_of_not_lt enough)

theorem verifiedAuditBytes_complete_raw :
    CompleteOrRefused 64 nineBytes (lit "ab\ncde\n\nf" |>.map UInt8.ofNat)
        (verifiedAuditBytes (progressSource dribbling) rawDjango 64 nineBytes
          (.new (lit "ab\ncde\n\nf" |>.map UInt8.ofNat))) ∧
      CompleteOrRefused 64 nineBytes (lit "ab\ncd" |>.map UInt8.ofNat)
        (verifiedAuditBytes (progressSource dribbling) rawDjango 64 nineBytes
          (.new (lit "ab\ncd" |>.map UInt8.ofNat))) :=
  ⟨verifiedAuditBytes_complete (progressSource dribbling) rawDjango 64 nineBytes _
      (djangoReads_rawDjango dribbling nineBytes _) (by decide),
    verifiedAuditBytes_complete (progressSource dribbling) rawDjango 64 nineBytes _
      (djangoReads_rawDjango dribbling nineBytes _) (by decide)⟩

end Complete

end Goggles
