import OpenVibeHost.EffectLogic

/-! `uploadIterable` of `lib/offsite.js`: a stream of chunks becomes one object of the bucket, in one piece
when it is short and in parts of one size when it is not. The commands are the calls, for one bucket and key. -/
namespace OpenVibeHost.Multipart
open Effects Program

abbrev Bytes := List UInt8

structure Part where
  eTag : Option String
  partNumber : Nat
  deriving DecidableEq, Repr

inductive Command where
  | createMultipartUpload
  | uploadPart (uploadId : String) (partNumber : Nat) (body : Bytes)
  | putObject (body : Bytes)
  | completeMultipartUpload (uploadId : String) (parts : List Part)
  | abortMultipartUpload (uploadId : String)
  deriving DecidableEq, Repr

/-- The bucket answers the upload's id, a part's tag, or nothing of note; or it refuses. -/
abbrev S3 : Signature := ⟨Command, fun _ => Except String (Option String), fun _ => 0⟩

/-- What is read: chunks, and where reading fails after them, why. -/
structure Source where
  chunks : List Bytes
  failure : Option String := none

structure Upload where
  uploadId : Option String := none
  parts : List Part := []

abbrev Uploading (α : Type) := Program S3 Upload String α

/-- `client.send`. -/
def send (command : Command) : Uploading (Option String) := do
  match ← ask (S := S3) command fun answer => answer with
  | .ok answer => ret answer
  | .error message => throw message

/-- The upload's id, once it is created. -/
def begun : Uploading String := do
  match (← own).uploadId with
  | some uploadId => ret uploadId
  | none =>
    match ← send .createMultipartUpload with
    | none => throw "CreateMultipartUpload returned no UploadId"
    | some uploadId =>
      if uploadId = "" then throw "CreateMultipartUpload returned no UploadId"
      else
        update fun upload => { upload with uploadId := some uploadId }
        ret uploadId

def sendPart (uploadId : String) (buf : Bytes) : Uploading Unit := do
  let partNumber := (← own).parts.length + 1
  let eTag ← send (.uploadPart uploadId partNumber buf)
  update fun upload => { upload with parts := upload.parts ++ [{ eTag := eTag, partNumber := partNumber }] }

/-- `while (pendingLen >= partSize)`: what is pending goes out in full parts; it answers the rest. -/
def sendFull (partSize : Nat) (pending : Bytes) : Uploading Bytes :=
  if partSize ≤ pending.length ∧ 0 < partSize then do
    let uploadId ← begun
    sendPart uploadId (pending.take partSize)
    sendFull partSize (pending.drop partSize)
  else ret pending
termination_by pending.length
decreasing_by simp; omega

/-- What is sent after the last chunk; it answers the number of parts. -/
def finish (rest : Bytes) : Uploading Nat := do
  match (← own).uploadId with
  | none =>
    let _ ← send (.putObject rest)
    ret 1
  | some uploadId =>
    whenever (rest ≠ []) (sendPart uploadId rest)
    let parts := (← own).parts
    let _ ← send (.completeMultipartUpload uploadId parts)
    ret parts.length

def body (partSize : Nat) (source : Source) : Uploading Nat := do
  let rest ← fold source.chunks [] fun pending chunk => sendFull partSize (pending ++ chunk)
  match source.failure with
  | some message => throw message
  | none => finish rest

/-- An upload that was begun is aborted; an abort that fails is passed over. -/
def abort : Uploading Unit := do
  match (← own).uploadId with
  | some uploadId => attempt (do let _ ← send (.abortMultipartUpload uploadId)) fun _ => ret ()
  | none => ret ()

/-- The first error matters more than that of the abort. -/
def abandon (message : String) : Uploading Nat := do
  abort
  throw message

def uploadIterable (partSize : Nat) (source : Source) : Uploading Nat :=
  attempt (body partSize source) abandon

/-! ### What was sent -/

def commands (events : List (Event S3)) : List Command := events.map (·.call)

def Failed (event : Event S3) : Prop := ∃ message, event.answer = .error message

/-- The parts of an upload, numbered from one. -/
def numbered (uploadId : String) (bodies : List Bytes) : List Command :=
  bodies.zipIdx.map fun (body, i) => .uploadPart uploadId (i + 1) body

theorem numbered_concat (uploadId : String) (bodies : List Bytes) (body : Bytes) :
    numbered uploadId (bodies ++ [body]) = numbered uploadId bodies ++ [.uploadPart uploadId (bodies.length + 1) body] := by
  simp [numbered, List.zipIdx_append]

/-- The bucket gave an upload this id. -/
def Created (uploadId : String) (events : List (Event S3)) : Prop :=
  uploadId ≠ "" ∧ ∃ event ∈ events, event.call = .createMultipartUpload ∧ event.answer = .ok (some uploadId)

def PartFailed (events : List (Event S3)) : Prop :=
  ∃ event ∈ events, Failed event ∧ ∃ uploadId partNumber body, event.call = .uploadPart uploadId partNumber body

/-- An upload in parts, all of which the bucket took. -/
structure Sent (uploadId : String) (bodies : List Bytes) (events : List (Event S3)) (upload : Upload) : Prop where
  sent : commands events = .createMultipartUpload :: numbered uploadId bodies
  well : ∀ event ∈ events, ¬ Failed event
  created : ∀ other, Created other events ↔ other = uploadId
  own : upload.uploadId = some uploadId
  parts : upload.parts.map (·.partNumber) = (List.range bodies.length).map (· + 1)

/-- The full parts that went out, and what they hold together. -/
def Going (partSize : Nat) (whole : Bytes) (events : List (Event S3)) (upload : Upload) : Prop :=
  (events = [] ∧ upload = {} ∧ whole = []) ∨
    ∃ uploadId bodies, bodies ≠ [] ∧ bodies.flatten = whole ∧ (∀ body ∈ bodies, body.length = partSize) ∧
      Sent uploadId bodies events upload

/-- What an upload may stop for. -/
def Trouble (source : Source) (events : List (Event S3)) : Prop :=
  source.failure ≠ none ∨ ∃ event ∈ events, Failed event ∨
    event.call = .createMultipartUpload ∧ ∀ uploadId, event.answer = .ok (some uploadId) → uploadId = ""

/-- How an upload may stop. -/
def Stopped (source : Source) (events : List (Event S3)) (upload : Upload) : Prop :=
  Trouble source events ∧
    ((upload.uploadId = none ∧ ∀ uploadId, ¬ Created uploadId events) ∨
      ∃ uploadId bodies, upload.uploadId = some uploadId ∧
        (∀ other, Created other events ↔ other = uploadId) ∧
        bodies.flatten <+: source.chunks.flatten ∧
        (commands events = .createMultipartUpload :: numbered uploadId bodies ∨
          source.failure = none ∧ ¬ PartFailed events ∧ ∃ parts, commands events =
            .createMultipartUpload :: numbered uploadId bodies ++ [.completeMultipartUpload uploadId parts]))

/-! ### Each step -/

section
variable {env : Environment S3} {base : List (Event S3)} {uploadId : String} {bodies : List Bytes}
  {partSize : Nat} {source : Source} {whole : Bytes}

theorem commands_concat (events : List (Event S3)) (event : Event S3) :
    commands (events ++ [event]) = commands events ++ [event.call] := by
  simp [commands]

theorem created_concat {events : List (Event S3)} {event : Event S3} (other : event.call ≠ .createMultipartUpload) :
    Created uploadId (events ++ [event]) ↔ Created uploadId events := by
  constructor
  · rintro ⟨named, found, member, call, answer⟩
    rcases List.mem_append.mp member with before | last
    · exact ⟨named, found, before, call, answer⟩
    · obtain rfl := List.mem_singleton.mp last
      exact absurd call other
  · rintro ⟨named, found, member, call, answer⟩
    exact ⟨named, found, List.mem_append_left _ member, call, answer⟩

theorem trouble_concat {events : List (Event S3)} {event : Event S3} (failed : Failed event) :
    Trouble source (events ++ [event]) :=
  .inr ⟨event, by simp, .inl failed⟩

/-- A part that the bucket took. -/
theorem Sent.add {events : List (Event S3)} {upload : Upload} {buf : Bytes} {answer : Option String} {clock : Nat}
    (sent : Sent uploadId bodies events upload) : Sent uploadId (bodies ++ [buf])
      (events ++ [⟨.uploadPart uploadId (bodies.length + 1) buf, .ok answer, clock⟩])
      { upload with parts := upload.parts ++ [⟨answer, bodies.length + 1⟩] } where
  sent := by rw [commands_concat, sent.sent, numbered_concat, List.cons_append]
  well := by
    intro event member
    rcases List.mem_append.mp member with before | last
    · exact sent.well event before
    · obtain rfl := List.mem_singleton.mp last
      rintro ⟨message, refused⟩
      exact nomatch refused
  created other := (created_concat (by simp)).trans (sent.created other)
  own := sent.own
  parts := by simp [sent.parts, List.range_succ]

/-- An answer, and what a refusal throws. -/
theorem meets_send {command : Command} {holds : List (Event S3) → Upload → Prop}
    {Q : Option String → List (Event S3) → Upload → Prop} {err : List (Event S3) → Upload → Prop}
    (answered : ∀ more s answer clock, holds more s → Q answer (more ++ [⟨command, .ok answer, clock⟩]) s)
    (refused : ∀ more s message clock, holds more s → err (more ++ [⟨command, .error message, clock⟩]) s) :
    Meets env (Since base holds) (send command) (fun answer => Since base (Q answer)) (fun _ => Since base err) := by
  unfold send
  refine meets_since_ask_then fun answer clock => ?_
  cases answer with
  | ok answer =>
    refine meets_ret fun w since => since.mono ?_
    rintro _ s ⟨before, rfl, now⟩
    exact answered before s answer clock now
  | error message =>
    refine meets_throw fun w since => since.mono ?_
    rintro _ s ⟨before, rfl, now⟩
    exact refused before s message clock now

/-- A part goes out with the next number; where it is refused, the whole upload stops. -/
theorem meets_sendPart (buf : Bytes) (within : (bodies ++ [buf]).flatten <+: source.chunks.flatten) :
    Meets env (Since base (Sent uploadId bodies)) (sendPart uploadId buf)
      (fun _ => Since base (Sent uploadId (bodies ++ [buf]))) (fun _ => Since base (Stopped source)) := by
  unfold sendPart
  refine meets_bind (meets_since_own (L := fun upload more s => Sent uploadId bodies more s ∧ s = upload)
    fun more s sent => ⟨sent, rfl⟩) fun upload => ?_
  refine meets_given (F := upload.parts.length = bodies.length) ?_ fun count => ?_
  · rintro w ⟨more, -, sent, rfl⟩
    simpa using congrArg List.length sent.parts
  dsimp only
  rw [count]
  refine meets_bind (meets_send (Q := fun answer more s => Sent uploadId (bodies ++ [buf]) more
    { s with parts := s.parts ++ [⟨answer, bodies.length + 1⟩] }) ?_ ?_) fun eTag => meets_since_update fun _ _ => id
  · rintro more s answer clock ⟨sent, rfl⟩
    exact sent.add
  · rintro more s message clock ⟨sent, rfl⟩
    refine ⟨trouble_concat ⟨message, rfl⟩, .inr ⟨uploadId, bodies ++ [buf], sent.own, fun other => ?_, within, .inl ?_⟩⟩
    · exact (created_concat (by simp)).trans (sent.created other)
    · rw [commands_concat, sent.sent, numbered_concat, List.cons_append]

/-- The upload is created once. -/
theorem meets_begun : Meets env (Since base (Going partSize whole)) begun
    (fun uploadId => Since base fun more s => ∃ bodies, bodies.flatten = whole ∧
      (∀ body ∈ bodies, body.length = partSize) ∧ Sent uploadId bodies more s)
    (fun _ => Since base (Stopped source)) := by
  unfold begun
  refine meets_bind (meets_since_own (L := fun upload more s => Going partSize whole more s ∧ s = upload)
    fun more s going => ⟨going, rfl⟩) fun upload => ?_
  cases begins : upload.uploadId with
  | some uploadId =>
    refine meets_ret fun w since => since.mono ?_
    rintro more s ⟨⟨-, rfl, -⟩ | ⟨_, bodies, -, flat, full, sent⟩, rfl⟩
    · exact nomatch begins
    · obtain rfl := Option.some.inj (begins.symm.trans sent.own)
      exact ⟨bodies, flat, full, sent⟩
  | none =>
    refine meets_bind (meets_send (Q := fun answer more s => whole = [] ∧ s = {} ∧
      ∃ clock, more = [⟨.createMultipartUpload, .ok answer, clock⟩]) ?_ ?_) fun answer => ?_
    · rintro more s answer clock ⟨⟨rfl, rfl, rfl⟩ | ⟨_, bodies, -, -, -, sent⟩, rfl⟩
      · exact ⟨rfl, rfl, clock, rfl⟩
      · exact nomatch begins.symm.trans sent.own
    · rintro more s message clock ⟨⟨rfl, rfl, rfl⟩ | ⟨_, bodies, -, -, -, sent⟩, rfl⟩
      · refine ⟨trouble_concat ⟨message, rfl⟩, .inl ⟨rfl, ?_⟩⟩
        rintro other ⟨-, event, member, -, given⟩
        obtain rfl := List.mem_singleton.mp member
        exact nomatch given
      · exact nomatch begins.symm.trans sent.own
    · have unnamed : (∀ uploadId, answer = some uploadId → uploadId = "") → ∀ w, Since base (fun more s => whole = [] ∧ s = {} ∧
          ∃ clock, more = [⟨.createMultipartUpload, .ok answer, clock⟩]) w → Since base (Stopped source) w := by
        refine fun empty w since => since.mono ?_
        rintro more s ⟨-, rfl, clock, rfl⟩
        refine ⟨.inr ⟨_, List.mem_singleton_self _, .inr ⟨rfl, fun uploadId same => empty uploadId (Except.ok.inj same)⟩⟩,
          .inl ⟨rfl, ?_⟩⟩
        rintro other ⟨named, event, member, -, given⟩
        obtain rfl := List.mem_singleton.mp member
        exact named (empty other (Except.ok.inj given))
      cases answer with
      | none => exact meets_throw (unnamed (by simp))
      | some uploadId =>
        dsimp only
        split
        · exact meets_throw (unnamed (by simpa))
        · rename_i named
          refine meets_bind (meets_since_update (L := fun more s => whole = [] ∧ Sent uploadId [] more s) ?_) fun _ =>
            meets_ret fun w since => since.mono fun more s ⟨nothing, sent⟩ => ⟨[], nothing.symm, by simp, sent⟩
          rintro more s ⟨nothing, rfl, clock, rfl⟩
          refine ⟨nothing, rfl, ?_, fun other => ⟨?_, ?_⟩, rfl, rfl⟩
          · rintro event member ⟨message, refused⟩
            obtain rfl := List.mem_singleton.mp member
            exact nomatch refused
          · rintro ⟨-, event, member, -, given⟩
            obtain rfl := List.mem_singleton.mp member
            exact (Option.some.inj (Except.ok.inj given)).symm
          · rintro rfl
            exact ⟨named, _, List.mem_singleton_self _, rfl, rfl⟩

/-- What is pending goes out in full parts, and less than one part is left. -/
theorem meets_sendFull (positive : 0 < partSize) (pending : Bytes) (within : whole ++ pending <+: source.chunks.flatten) :
    Meets env (Since base (Going partSize whole)) (sendFull partSize pending)
      (fun rest => Since base fun more s => rest.length < partSize ∧ ∃ out, whole ++ pending = out ++ rest ∧
        Going partSize out more s) (fun _ => Since base (Stopped source)) := by
  induction length : pending.length using Nat.strongRecOn generalizing pending whole with
  | ind n ih =>
    subst length
    rw [sendFull]
    split
    · rename_i enough
      have halves : whole ++ pending = whole ++ pending.take partSize ++ pending.drop partSize := by
        rw [List.append_assoc, List.take_append_drop]
      refine meets_bind (meets_begun) fun uploadId => ?_
      refine meets_bind (M := fun _ => Since base (Going partSize (whole ++ pending.take partSize))) ?_ fun _ => ?_
      · rintro w ⟨more, trace, bodies, rfl, full, sent⟩
        have first : (bodies ++ [pending.take partSize]).flatten <+: source.chunks.flatten := by
          rw [List.flatten_append, List.flatten_singleton]
          exact .trans ⟨_, halves.symm⟩ within
        refine (meets_sendPart (pending.take partSize) first w ⟨more, trace, sent⟩).mono (fun _ w since => since.mono fun more s now => .inr ⟨uploadId, _, by simp, by simp, ?_, now⟩) fun _ _ => id
        intro body member
        rcases List.mem_append.mp member with before | last
        · exact full body before
        · obtain rfl := List.mem_singleton.mp last
          rw [List.length_take, Nat.min_eq_left enough.1]
      · have shorter : (pending.drop partSize).length < pending.length := by
          rw [List.length_drop]; omega
        refine (ih _ shorter (pending.drop partSize) (halves ▸ within) rfl).weaken (fun _ => id) ?_ fun _ _ => id
        exact fun rest w since => since.mono fun more s now => halves ▸ now
    · rename_i short
      exact meets_ret fun w since => since.mono fun more s going => ⟨by omega, whole, rfl, going⟩

/-- How an upload ends well. -/
inductive Whole (partSize : Nat) (bytes : Bytes) : Nat → List Command → Prop
  | single : bytes.length < partSize → Whole partSize bytes 1 [.putObject bytes]
  | parts (uploadId : String) (full : List Bytes) (last : Bytes) (parts : List Part) :
    (full ++ [last]).flatten = bytes → (∀ body ∈ full, body.length = partSize) → 0 < last.length →
    last.length ≤ partSize → parts.map (·.partNumber) = (List.range (full.length + 1)).map (· + 1) →
    Whole partSize bytes (full.length + 1)
      (.createMultipartUpload :: numbered uploadId (full ++ [last]) ++ [.completeMultipartUpload uploadId parts])

theorem not_partFailed {events : List (Event S3)} {upload : Upload} (sent : Sent uploadId bodies events upload) :
    ¬ PartFailed events := by
  rintro ⟨event, member, failed, -⟩
  exact sent.well event member failed

theorem whole_of_sent (positive : 0 < partSize) {rest : Bytes} {upload : Upload} {events : List (Event S3)}
    (full : ∀ body ∈ bodies, body.length = partSize) (some' : bodies ≠ []) (short : rest.length < partSize)
    (sent : Sent uploadId (if rest = [] then bodies else bodies ++ [rest]) events upload) :
    Whole partSize (bodies.flatten ++ rest) upload.parts.length
      (commands events ++ [.completeMultipartUpload uploadId upload.parts]) := by
  have count : upload.parts.length = (if rest = [] then bodies else bodies ++ [rest]).length := by
    simpa using congrArg List.length sent.parts
  have numbers := sent.parts
  rw [sent.sent, count]
  by_cases none : rest = []
  · obtain ⟨front, last, rfl⟩ : ∃ front last, bodies = front ++ [last] :=
      ⟨_, _, (List.dropLast_append_getLast some').symm⟩
    have long := full last (by simp)
    simp only [none, if_true, List.length_append, List.length_singleton] at numbers ⊢
    exact .parts uploadId front last upload.parts (by simp) (fun body member => full body (by simp [member]))
      (by omega) (by omega) numbers
  · simp only [if_neg none, List.length_append, List.length_singleton] at numbers ⊢
    exact .parts uploadId bodies rest upload.parts (by simp) full (List.length_pos_iff.mpr none) (by omega) numbers

/-- An upload that ended well. -/
def Ended (partSize : Nat) (source : Source) (count : Nat) (events : List (Event S3)) : Prop :=
  Whole partSize source.chunks.flatten count (commands events) ∧ source.failure = none ∧ ¬ PartFailed events

theorem partFailed_concat {events : List (Event S3)} {event : Event S3} (before : ¬ PartFailed events)
    (other : ∀ uploadId partNumber body, event.call ≠ .uploadPart uploadId partNumber body) :
    ¬ PartFailed (events ++ [event]) := by
  rintro ⟨found, member, failed, uploadId, partNumber, body, call⟩
  rcases List.mem_append.mp member with earlier | last
  · exact before ⟨found, earlier, failed, uploadId, partNumber, body, call⟩
  · obtain rfl := List.mem_singleton.mp last
    exact other _ _ _ call

/-- The last part, if there is one, and the completion. -/
theorem meets_finish (positive : 0 < partSize) {rest out : Bytes} (short : rest.length < partSize)
    (all : out ++ rest = source.chunks.flatten) (read : source.failure = none) :
    Meets env (Since base (Going partSize out)) (finish rest)
      (fun count => Since base fun more _ => Ended partSize source count more) (fun _ => Since base (Stopped source)) := by
  unfold finish
  refine meets_bind (meets_since_own (L := fun upload more s => Going partSize out more s ∧ s = upload)
    fun more s going => ⟨going, rfl⟩) fun upload => ?_
  cases begins : upload.uploadId with
  | none =>
    refine meets_bind (meets_send (Q := fun answer more s => Ended partSize source 1 more) ?_ ?_) fun _ => meets_ret fun _ => id
    · rintro more s answer clock ⟨⟨rfl, rfl, rfl⟩ | ⟨_, bodies, -, -, -, sent⟩, rfl⟩
      · refine ⟨?_, read, ?_⟩
        · rw [← all]
          exact .single short
        · exact partFailed_concat (fun ⟨_, member, _⟩ => nomatch member) fun _ _ _ same => nomatch same
      · exact nomatch begins.symm.trans sent.own
    · rintro more s message clock ⟨⟨rfl, rfl, rfl⟩ | ⟨_, bodies, -, -, -, sent⟩, rfl⟩
      · refine ⟨trouble_concat ⟨message, rfl⟩, .inl ⟨rfl, ?_⟩⟩
        rintro other ⟨-, event, member, call, -⟩
        obtain rfl := List.mem_singleton.mp member
        exact nomatch call
      · exact nomatch begins.symm.trans sent.own
  | some uploadId =>
    rintro w ⟨more, trace, ⟨-, fresh, -⟩ | ⟨_, bodies, some', flat, full, sent⟩, rfl⟩
    · rw [fresh] at begins
      exact nomatch begins
    · obtain rfl := Option.some.inj (begins.symm.trans sent.own)
      subst flat
      refine (?_ : Meets env (Since base (Sent uploadId bodies)) _ _ _) w ⟨more, trace, sent⟩
      refine meets_bind (M := fun _ => Since base (Sent uploadId (if rest = [] then bodies else bodies ++ [rest])))
        (meets_whenever (fun left => ?_) fun nothing w since => ?_) fun _ => ?_
      · rw [if_neg left]
        have sent' : (bodies ++ [rest]).flatten = source.chunks.flatten := by
          rw [List.flatten_append, List.flatten_singleton, all]
        exact meets_sendPart rest (sent' ▸ List.prefix_rfl)
      · rwa [if_pos (not_not.mp nothing)]
      · refine meets_bind (meets_since_own (L := fun upload more s =>
          Sent uploadId (if rest = [] then bodies else bodies ++ [rest]) more s ∧ s = upload)
          fun more s sent => ⟨sent, rfl⟩) fun upload => ?_
        refine meets_bind (meets_send (Q := fun _ more s => Ended partSize source upload.parts.length more) ?_ ?_)
          fun _ => meets_ret fun _ => id
        · rintro more s answer clock ⟨sent, rfl⟩
          refine ⟨?_, read, partFailed_concat (not_partFailed sent) fun _ _ _ same => nomatch same⟩
          rw [commands_concat, ← all]
          exact whole_of_sent positive full some' short sent
        · rintro more s message clock ⟨sent, rfl⟩
          refine ⟨trouble_concat ⟨message, rfl⟩, .inr ⟨uploadId, if rest = [] then bodies else bodies ++ [rest], sent.own,
            fun other => ?_, ?_, .inr ⟨read, ?_, s.parts, ?_⟩⟩⟩
          · exact (created_concat (by simp)).trans (sent.created other)
          · rw [← all]
            split
            · rename_i nothing
              exact ⟨[], by simp [nothing]⟩
            · simp
          · exact partFailed_concat (not_partFailed sent) fun _ _ _ same => nomatch same
          · rw [commands_concat, sent.sent]

/-- What was read of the source so far. -/
theorem meets_body (positive : 0 < partSize) :
    Meets env (Since base fun more s => more = [] ∧ s = {}) (body partSize source)
      (fun count => Since base fun more _ => Ended partSize source count more) (fun _ => Since base (Stopped source)) := by
  unfold body
  refine meets_bind (M := fun rest => Since base fun more s => rest.length < partSize ∧ ∃ out,
    source.chunks.flatten = out ++ rest ∧ Going partSize out more s) ?_ fun rest => ?_
  · refine (meets_fold_split (I := fun done rest => Since base fun more s => rest.length < partSize ∧ ∃ out,
      done.flatten = out ++ rest ∧ Going partSize out more s) fun done chunk later pending whole => ?_).weaken
        (fun w since => since.mono ?_) (fun _ _ => id) fun _ _ => id
    · rintro w ⟨more, trace, short, out, read, going⟩
      have next : (done ++ [chunk]).flatten = out ++ (pending ++ chunk) := by
        rw [List.flatten_append, List.flatten_singleton, read, List.append_assoc]
      have within : out ++ (pending ++ chunk) <+: source.chunks.flatten := by
        rw [← next, whole]
        exact ⟨later.flatten, by simp⟩
      rw [next]
      exact meets_sendFull positive (pending ++ chunk) within w ⟨more, trace, going⟩
    · rintro more s ⟨rfl, rfl⟩
      exact ⟨positive, [], rfl, .inl ⟨rfl, rfl, rfl⟩⟩
  · cases failure : source.failure with
    | some message =>
      refine meets_throw fun w since => since.mono ?_
      rintro more s ⟨-, out, read, ⟨rfl, rfl, rfl⟩ | ⟨uploadId, bodies, -, rfl, -, sent⟩⟩
      · exact ⟨.inl (by simp [failure]), .inl ⟨rfl, fun other ⟨_, _, member, _⟩ => nomatch member⟩⟩
      · exact ⟨.inl (by simp [failure]), .inr ⟨uploadId, bodies, sent.own, sent.created, ⟨rest, read.symm⟩, .inl sent.sent⟩⟩
    | none =>
      rintro w ⟨more, trace, short, out, read, going⟩
      exact meets_finish positive short read.symm failure w ⟨more, trace, going⟩

/-! ### The whole upload -/

def Command.isPart : Command → Bool
  | .uploadPart .. => true
  | _ => false

@[simp] theorem filter_numbered (uploadId : String) (bodies : List Bytes) :
    (numbered uploadId bodies).filter Command.isPart = numbered uploadId bodies := by
  rw [List.filter_eq_self]
  intro command member
  obtain ⟨⟨body, i⟩, -, rfl⟩ := List.mem_map.mp member
  rfl

theorem Trouble.append {events : List (Event S3)} (trouble : Trouble source events) (more : List (Event S3)) :
    Trouble source (events ++ more) :=
  trouble.imp_right fun ⟨event, member, why⟩ => ⟨event, List.mem_append_left _ member, why⟩

/-- What an upload that was created and then stopped leaves behind. -/
structure Aborted (source : Source) (uploadId : String) (events : List (Event S3)) : Prop where
  aborted : .abortMultipartUpload uploadId ∈ commands events
  incomplete : source.failure ≠ none ∨ PartFailed events →
    ∀ other parts, .completeMultipartUpload other parts ∉ commands events
  sent : ∃ bodies, (commands events).filter Command.isPart = numbered uploadId bodies ∧
    bodies.flatten <+: source.chunks.flatten

theorem complete_notMem (uploadId other : String) (bodies : List Bytes) (parts : List Part) :
    .completeMultipartUpload other parts ∉ numbered uploadId bodies := by
  simp [numbered]

/-- The abort is the last that is sent. -/
theorem aborted_of_stopped {events : List (Event S3)} {upload : Upload} (stopped : Stopped source events upload)
    (own : upload.uploadId = some uploadId) (answer : Except String (Option String)) (clock : Nat) :
    Aborted source uploadId (events ++ [⟨.abortMultipartUpload uploadId, answer, clock⟩]) := by
  obtain ⟨-, ⟨none, -⟩ | ⟨other, bodies, own', created, within, sent⟩⟩ := stopped
  · exact nomatch none.symm.trans own
  · obtain rfl := Option.some.inj (own'.symm.trans own)
    refine ⟨by simp [commands_concat], fun fails other' parts => ?_, bodies, ?_, within⟩
    · rw [commands_concat]
      rcases sent with sent | ⟨read, well, -⟩
      · simpa [sent] using complete_notMem other other' bodies parts
      · rcases fails with failure | failed
        · exact absurd read failure
        · exact absurd failed (partFailed_concat well fun _ _ _ same => nomatch same)
    · rw [commands_concat]
      rcases sent with sent | ⟨-, -, parts, sent⟩ <;> rw [sent] <;> simp [Command.isPart]

/-- What is given up is aborted, where there is something to abort. -/
theorem meets_abort :
    Meets env (Since base (Stopped source)) abort
      (fun _ => Since base fun more _ => Trouble source more ∧
        ∀ uploadId, Created uploadId more → Aborted source uploadId more) (fun _ _ => False) := by
  unfold abort
  refine meets_bind (meets_since_own (L := fun upload more s => Stopped source more s ∧ s = upload)
    fun more s stopped => ⟨stopped, rfl⟩) fun upload => ?_
  cases begins : upload.uploadId with
  | none =>
    refine meets_ret fun w since => since.mono ?_
    rintro more s ⟨⟨trouble, ⟨-, never⟩ | ⟨_, _, own, -⟩⟩, rfl⟩
    · exact ⟨trouble, fun uploadId created => absurd created (never uploadId)⟩
    · exact nomatch begins.symm.trans own
  | some uploadId =>
    have closes : ∀ more s answer clock, Stopped source more s ∧ s = upload →
        Trouble source (more ++ [⟨.abortMultipartUpload uploadId, answer, clock⟩]) ∧
          ∀ other, Created other (more ++ [⟨.abortMultipartUpload uploadId, answer, clock⟩]) →
            Aborted source other (more ++ [⟨.abortMultipartUpload uploadId, answer, clock⟩]) := by
      rintro more s answer clock ⟨stopped, rfl⟩
      refine ⟨stopped.1.append _, fun other created => ?_⟩
      rw [created_concat (by simp)] at created
      obtain ⟨-, ⟨-, never⟩ | ⟨_, _, own, only, -⟩⟩ := id stopped
      · exact absurd created (never other)
      · obtain rfl := Option.some.inj (own.symm.trans begins)
        exact (only other).mp created ▸ aborted_of_stopped stopped begins answer clock
    refine meets_attempt (meets_bind (meets_send (fun more s answer clock => closes more s (.ok answer) clock)
      fun more s message clock => closes more s (.error message) clock) fun _ => meets_ret fun _ => id) fun _ => meets_ret fun _ => id

end

/-- What an upload came to. -/
structure Outcome (partSize : Nat) (source : Source) (result : Except String Nat) (events : List (Event S3)) : Prop where
  whole : ∀ count, result = .ok count → Whole partSize source.chunks.flatten count (commands events)
  stops : ∀ message, result = .error message → Trouble source events
  aborted : ∀ uploadId, Created uploadId events → source.failure ≠ none ∨ PartFailed events →
    Aborted source uploadId events

/-- However the chunks fall, what is uploaded is what was read, in parts of one size, numbered from one; an upload
that fails on the way is aborted and never completed, and it fails only for a reason. -/
theorem uploadIterable_whole {partSize : Nat} (positive : 0 < partSize) (source : Source) (env : Environment S3)
    (w : World S3 Upload) (fresh : w.own = {}) :
    ∃ events, ((uploadIterable partSize source).run env w).2.trace = w.trace ++ events ∧
      Outcome partSize source ((uploadIterable partSize source).run env w).1 events := by
  have ended : Ends (fun count => Since w.trace fun more _ => Ended partSize source count more)
      (fun _ => Since w.trace fun more _ => Trouble source more ∧
        ∀ uploadId, Created uploadId more → Aborted source uploadId more)
      ((uploadIterable partSize source).run env w) :=
    meets_attempt (meets_body positive) (fun message => meets_bind
      (meets_abort.weaken (fun _ => id) (fun _ _ => id) fun _ _ => False.elim) fun _ => meets_throw fun _ => id)
      w (since_start ⟨rfl, fresh⟩)
  cases ran : (uploadIterable partSize source).run env w with
  | mk result next =>
    rw [ran] at ended
    cases result with
    | ok count =>
      obtain ⟨events, trace, whole, read, well⟩ := ended
      refine ⟨events, trace, fun _ same => Except.ok.inj same ▸ whole, (fun _ same => nomatch same), fun _ _ fails => ?_⟩
      exact fails.elim (absurd read) (absurd · well)
    | error message =>
      obtain ⟨events, trace, trouble, aborted⟩ := ended
      exact ⟨events, trace, (fun _ same => nomatch same), fun _ _ => trouble, fun uploadId created _ => aborted uploadId created⟩

/-- A bucket that takes everything. -/
def bucket : Environment S3 where
  answer _
    | .createMultipartUpload => .ok (some "u1")
    | _ => .ok none
  takes _ _ := 1

/-- Reading fails after the first part went out. -/
theorem lost_aborted : ∃ events,
    ((uploadIterable 2 ⟨[[1], [], [2, 3]], some "lost"⟩).run bucket ⟨{}, 0, []⟩).2.trace = [] ++ events ∧
      Outcome 2 ⟨[[1], [], [2, 3]], some "lost"⟩
        ((uploadIterable 2 ⟨[[1], [], [2, 3]], some "lost"⟩).run bucket ⟨{}, 0, []⟩).1 events :=
  uploadIterable_whole (by decide) ⟨[[1], [], [2, 3]], some "lost"⟩ bucket ⟨{}, 0, []⟩ rfl

end OpenVibeHost.Multipart
