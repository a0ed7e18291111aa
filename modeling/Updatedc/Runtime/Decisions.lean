import Updatedc.Preflight.Packages
import Updatedc.Contracts.Backend

/-!
# Admission decisions (`updatec/src/admission.rs`)

A policy's webhook decides which packages may move. One exchange asks about the whole subject set
and is bound to it: the answer is signed by the pinned key over the bytes received, echoes the
request's nonce and names exactly the subjects asked about. Answers are kept for a short while
(`AdmissionCache`), and so are failures, which may be answered with what is still fresh.

What outlives a call is one entry and one failed attempt. `Sourced` says where an entry comes from;
every call keeps it (`Sourced.decisions`), and **a subject moves only on a fresh answer to a bound
exchange** (`decisions_fresh_and_bound`).
-/

namespace Updatedc.Admission

open Contracts

def admissionSchema : Nat := 1

def decisionSignatureHeader : String := "x-draupnir-admission-signature"

/-- Nanoseconds. -/
def cacheTtl : Nat := 30 * 10 ^ 9

def bodyLimit : Nat := 1024 * 1024

def revisionLimit : Nat := 256

def reasonLimit : Nat := 1024

def statusMessageLimit : Nat := 2048

/-! ## The exchange -/

structure AdmissionSubject where
  /-- Digest of the subject's policy-bearing facts. -/
  id : String
  applicationSha256 : DigestText
  deriving DecidableEq

structure AdmissionRequest where
  schema : Nat
  /-- A fresh nonce. -/
  requestId : String
  «namespace» : String
  repository : String
  subjects : List AdmissionSubject

structure SubjectDecision where
  subjectId : String
  verdict : AdmissionVerdict
  reason : Option String
  deriving DecidableEq

structure AdmissionResponse where
  schema : Nat
  requestId : String
  /-- The remote's own revision of the decision set. -/
  revision : String
  decisions : List SubjectDecision
  deriving DecidableEq

/-- Where decisions come from. The shared secret only authenticates the caller. -/
structure AdmissionEndpoint where
  url : String
  requestKey : Bytes
  decisionKey : P256PublicKey

/-- `serde_json` for the two documents. -/
class ExchangeJson where
  request : Json AdmissionRequest
  response : Json AdmissionResponse

attribute [reducible, instance] ExchangeJson.request ExchangeJson.response

/-- `str::trim`. -/
def trim (text : String) : String :=
  String.ofList (((text.toList.dropWhile isWhitespace).reverse.dropWhile isWhitespace).reverse)

def stripPrefix : (start text : List Char) → Option (List Char)
  | [], text => some text
  | _ :: _, [] => none
  | c :: start, d :: text => if c = d then stripPrefix start text else none

/-- Verify the signature over exactly the bytes received. -/
def verifyDecisionSignature [Crypto] [Base64] (publicKey : P256PublicKey) (body : Bytes)
    (header : String) : Bool :=
  match stripPrefix "es256:".toList (trim header).toList with
  | none => false
  | some encoded =>
    match Base64.decode (trim (String.ofList encoded)) with
    | none => false
    | some signature => verifyAsn1 publicKey.point body signature

/-- What the network made of a request. -/
inductive Wire where
  /-- The URL was refused, there was no client, or the call failed. -/
  | failed (error : String)
  /-- An answer with a status, perhaps a signature header, and a body of bounded size. -/
  | answered (success : Bool) (status : String) (signature : Option String)
      (body : Except String Bytes)

/-- One decision of a response, given the subjects seen before it. -/
def checkDecision (expected : BTreeSet String) (actual : BTreeSet String)
    (decision : SubjectDecision) : Except String (BTreeSet String) :=
  if decision.reason.any fun reason => reason.utf8ByteSize > reasonLimit then
    .error (s!"admission response reason for subject {decision.subjectId} is larger than the " ++
      s!"{reasonLimit}-byte limit")
  else if actual.contains decision.subjectId then
    .error s!"admission response repeats subject {decision.subjectId}"
  else if !expected.contains decision.subjectId then
    .error s!"admission response contains unrequested subject {decision.subjectId}"
  else .ok (actual.insert decision.subjectId)

/-- The ids a request asks about. -/
def subjectIds (subjects : List AdmissionSubject) : BTreeSet String :=
  .ofList (subjects.map (·.id))

def validateResponse (request : AdmissionRequest) (response : AdmissionResponse) :
    Except String Unit :=
  let expected := subjectIds request.subjects
  if response.schema ≠ admissionSchema then
    .error (s!"unsupported admission response schema {response.schema} (expected " ++
      s!"{admissionSchema})")
  else if response.requestId ≠ request.requestId then
    .error "admission response requestId does not match the request"
  else if response.revision.isEmpty || response.revision.utf8ByteSize > revisionLimit then
    .error s!"admission response revision must be 1..={revisionLimit} bytes"
  else
    match response.decisions.foldlM (checkDecision expected) ∅ with
    | .error error => .error error
    | .ok actual =>
      let missing := (expected.toList.filter fun id => !actual.contains id).length
      if actual ≠ expected then .error s!"admission response omits {missing} requested subject(s)"
      else .ok ()

section
variable [Crypto] [Base64] [ExchangeJson]

/-- One round trip. -/
def fetch (endpoint : AdmissionEndpoint) (request : AdmissionRequest) (wire : Wire) :
    Except String AdmissionResponse :=
  if (Json.toVec request).length > bodyLimit then
    .error s!"admission request is larger than the {bodyLimit}-byte limit"
  else
    match wire with
    | .failed error => .error error
    | .answered success status signature body =>
      -- An error status is a failed transport, never a verdict, signed or not.
      if !success then .error s!"admission webhook returned HTTP {status}"
      else
        match signature, body with
        | none, _ => .error s!"admission response is missing {decisionSignatureHeader}"
        | some _, .error error => .error error
        | some header, .ok body =>
          if !verifyDecisionSignature endpoint.decisionKey body header then
            .error "admission decision signature is invalid"
          else
            match Json.fromSlice body with
            | .error error => .error s!"decoding admission response: {error}"
            | .ok response => (validateResponse request response).map fun _ => response

end

/-! ## The cache -/

structure CachedDecisionSet where
  policy : String
  fingerprint : String
  fetchedAt : Nat
  revision : String
  decisions : BTreeMap String SubjectDecision

structure FailedAttempt where
  policy : String
  fingerprint : String
  attemptedAt : Nat
  requested : BTreeSet String
  error : String

structure AdmissionCache where
  entry : Option CachedDecisionSet := none
  failed : Option FailedAttempt := none

/-- One call: who is asked, about what, when, and what the nonce and the network turn out to be. -/
structure Consultation where
  policyName : String
  fingerprint : String
  endpoint : AdmissionEndpoint
  «namespace» : String
  repository : String
  subjects : List AdmissionSubject
  now : Nat
  token : Except String String
  wire : Wire

/-- What a call returns: decisions, the revision they are of, and an error. -/
abbrev Decided := BTreeMap String SubjectDecision × Option String × Option String

def selectDecisions (decisions : BTreeMap String SubjectDecision) (expected : BTreeSet String) :
    BTreeMap String SubjectDecision :=
  .ofList (expected.toList.filterMap fun id => decisions[id]?.map fun decision => (id, decision))

namespace Consultation

variable (self : Consultation)

def expected : BTreeSet String := subjectIds self.subjects

def request (requestId : String) : AdmissionRequest where
  schema := admissionSchema
  requestId
  «namespace» := self.namespace
  repository := self.repository
  subjects := self.subjects

/-- The exchange of this call, where it comes to one. -/
def fetched [Crypto] [Base64] [ExchangeJson] : Except String AdmissionResponse :=
  match self.token with
  | .ok requestId => fetch self.endpoint (self.request requestId) self.wire
  | .error error => .error s!"generating admission request ID: {error}"

end Consultation

namespace AdmissionCache

def clear (_ : AdmissionCache) : AdmissionCache := {}

variable (self : AdmissionCache)

/-- The entry, while it is of this policy and endpoint and not too old. -/
def fresh (call : Consultation) : Option CachedDecisionSet :=
  self.entry.filter fun cached => cached.policy == call.policyName &&
    cached.fingerprint == call.fingerprint && call.now - cached.fetchedAt < cacheTtl

/-- A failed endpoint is not asked again at once about the same subjects. -/
def recentFailure (call : Consultation) : Option FailedAttempt :=
  self.failed.filter fun failed => failed.policy == call.policyName &&
    failed.fingerprint == call.fingerprint && call.now - failed.attemptedAt < cacheTtl &&
    call.expected.toList.all (failed.requested.contains ·)

/-- What is still fresh, next to an error. -/
def fallback (call : Consultation) (error : String) : Decided :=
  (((self.fresh call).map fun cached => selectDecisions cached.decisions call.expected).getD ∅,
    (self.fresh call).map (·.revision), some error)

/-- The decisions of a response, by subject. -/
def bySubject (decisions : List SubjectDecision) : BTreeMap String SubjectDecision :=
  .ofList (decisions.map fun decision => (decision.subjectId, decision))

def remember (_ : AdmissionCache) (call : Consultation) (response : AdmissionResponse) :
    AdmissionCache where
  entry := some
    { policy := call.policyName, fingerprint := call.fingerprint, fetchedAt := call.now
      revision := response.revision, decisions := bySubject response.decisions }
  failed := none

def rememberFailure (call : Consultation) (error : String) :
    AdmissionCache where
  entry := self.entry
  failed := some
    { policy := call.policyName, fingerprint := call.fingerprint, attemptedAt := call.now
      requested := call.expected, error }

/-- **One call of the cache.** -/
def decisions [Crypto] [Base64] [ExchangeJson] (call : Consultation) : AdmissionCache × Decided :=
  match (self.fresh call).filter fun cached =>
      call.expected.toList.all (cached.decisions.contains ·) with
  | some cached =>
    (self, selectDecisions cached.decisions call.expected, some cached.revision, none)
  | none =>
    match self.recentFailure call with
    | some failed => (self, self.fallback call failed.error)
    | none =>
      match call.fetched with
      | .ok response => (self.remember call response, bySubject response.decisions,
          some response.revision, none)
      -- A new subject forces a refresh, but does not invalidate what is still fresh.
      | .error error => (self.rememberFailure call error, self.fallback call error)

end AdmissionCache

/-! ## What a verdict comes to -/

/-- The longest start of the text within `limit` bytes. -/
def truncated : (limit : Nat) → List Char → List Char
  | _, [] => []
  | limit, c :: rest =>
    if c.utf8Size ≤ limit then c :: truncated (limit - c.utf8Size) rest else []

def statusMessage (message : String) : String :=
  if message.utf8ByteSize ≤ statusMessageLimit then message
  else String.ofList (truncated (statusMessageLimit - 3) message.toList) ++ "..."

/-- The verdict of a pass on the referenced policy. -/
structure Evaluation where
  policyName : Option String
  revision : Option String
  error : Option String
  actions : Option AdmissionActions
  decisions : BTreeMap String SubjectDecision

structure Status where
  allowed : Bool
  reason : String
  message : String

/-- Whether a verdict allows movement, with the reason and the word for it. -/
def judge (actions : AdmissionActions) : AdmissionVerdict → Bool × String × String
  | .compliant => (true, "Compliant", "allows")
  | .nonCompliant =>
    if actions.nonCompliant = .allow then (true, "NonCompliantAllowed", "allows")
    else (false, "NonCompliantBlocked", "blocks")
  | .noInformation =>
    if actions.noInformation = .allow then (true, "NoInformationAllowed", "allows")
    else (false, "NoInformationBlocked", "blocks")
  | .pending => (false, "DecisionPending", "blocks")

/-- The one interpretation of a verdict. -/
def Evaluation.subjectStatus (self : Evaluation) (subject : AdmissionSubject) : Option Status :=
  self.policyName.map fun policy =>
    let revision := self.revision.getD "unavailable"
    match self.actions with
    | none =>
      let error := self.error.getD "no authoritative decision is available"
      ⟨false, "AdmissionUnavailable", statusMessage
        (s!"UpdateAdmissionPolicy {policy} cannot be evaluated for subject {subject.id}; {error}")⟩
    | some actions =>
      match self.decisions[subject.id]? with
      | none =>
        let error := self.error.getD "the response was incomplete"
        ⟨false, "AdmissionUnavailable", statusMessage
          (s!"UpdateAdmissionPolicy {policy} has no current authoritative decision for subject " ++
            s!"{subject.id} (last revision {revision}); {error}")⟩
      | some decision =>
        let detail := decision.reason.getD "no detail supplied"
        let (allowed, reason, action) := judge actions decision.verdict
        ⟨allowed, reason, statusMessage
          (s!"UpdateAdmissionPolicy {policy} {action} subject {subject.id} at Draupnir revision " ++
            s!"{revision}: {detail}")⟩

/-- The end of `evaluate`: what the cache answered, under the policy's actions. -/
def Consultation.evaluation (call : Consultation) (actions : AdmissionActions)
    (decided : Decided) : Evaluation where
  policyName := some call.policyName
  revision := decided.2.1
  error := decided.2.2
  actions := some actions
  decisions := decided.1

/-! ## Bound exchanges -/

section
variable [Crypto] [Base64] [ExchangeJson]

/-- The answer to this call's exchange: signed by the pinned key over the bytes received, with the
request's nonce, and about exactly the subjects asked about. -/
structure Bound (call : Consultation) (response : AdmissionResponse) : Prop where
  signed : ∃ status header body,
    call.wire = .answered true status (some header) (.ok body) ∧
      verifyDecisionSignature call.endpoint.decisionKey body header = true ∧
      Json.fromSlice body = .ok response
  echoed : call.token = .ok response.requestId
  covers : ∀ id, id ∈ response.decisions.map (·.subjectId) ↔ id ∈ call.subjects.map (·.id)

/-- A decision of a response to this call's own exchange. -/
def Answers (call : Consultation) (decision : SubjectDecision) : Prop :=
  ∃ response, Bound call response ∧ decision ∈ response.decisions

omit [Crypto] [Base64] [ExchangeJson] in
theorem mem_subjectIds {subjects : List AdmissionSubject} {id : String} :
    id ∈ subjectIds subjects ↔ id ∈ subjects.map (·.id) := by
  simp [subjectIds]

omit [Crypto] [Base64] [ExchangeJson] in
/-- The loop over the decisions collects their subjects. -/
theorem mem_of_checkDecisions {expected : BTreeSet String} {decisions : List SubjectDecision}
    {first last : BTreeSet String}
    (ok : decisions.foldlM (checkDecision expected) first = .ok last) (id : String) :
    id ∈ last ↔ id ∈ first ∨ id ∈ decisions.map (·.subjectId) := by
  induction decisions generalizing first with
  | nil =>
    cases ok
    simp
  | cons decision rest ih =>
    obtain ⟨next, here, ok⟩ := Except.bind_ok_iff.mp ok
    unfold checkDecision at here
    split_ifs at here
    cases here
    rw [ih ok, List.map_cons, List.mem_cons, Std.ExtTreeSet.mem_insert, compare_eq_iff_eq]
    tauto

variable {response : AdmissionResponse}

omit [Crypto] [Base64] [ExchangeJson] in
theorem validateResponse_ok {request : AdmissionRequest}
    (ok : validateResponse request response = .ok ()) :
    response.requestId = request.requestId ∧
      ∀ id, id ∈ response.decisions.map (·.subjectId) ↔ id ∈ request.subjects.map (·.id) := by
  unfold validateResponse at ok
  dsimp only at ok
  split_ifs at ok with schema other bounds
  split at ok
  · cases ok
  · rename_i actual collected
    split_ifs at ok with incomplete
    rw [not_not] at other incomplete
    refine ⟨other, fun id => ?_⟩
    rw [← mem_subjectIds, ← incomplete, mem_of_checkDecisions collected]
    simp

/-- **An exchange that succeeds is bound.** -/
theorem bound_of_fetched {call : Consultation} (ok : call.fetched = .ok response) :
    Bound call response := by
  unfold Consultation.fetched at ok
  split at ok
  · rename_i requestId token
    unfold fetch at ok
    split_ifs at ok
    split at ok
    · cases ok
    rename_i success status signature body wire
    split_ifs at ok with failed
    split at ok
    · cases ok
    · cases ok
    rename_i header body
    split_ifs at ok with unsigned
    split at ok
    · cases ok
    rename_i decoded read
    obtain ⟨⟨⟩, valid, rfl⟩ := Except.map_ok_iff.mp ok
    obtain ⟨echoed, covers⟩ := validateResponse_ok valid
    rw [Bool.not_eq_true, Bool.not_eq_false'] at failed unsigned
    subst failed
    exact ⟨⟨status, header, body, wire, unsigned, read⟩,
      token.trans (congrArg _ echoed.symm), covers⟩
  · cases ok

omit [Crypto] [Base64] [ExchangeJson] in
theorem getElem?_selectDecisions {decisions : BTreeMap String SubjectDecision}
    {expected : BTreeSet String} {id : String} {decision : SubjectDecision}
    (found : (selectDecisions decisions expected)[id]? = some decision) :
    id ∈ expected ∧ decisions[id]? = some decision := by
  obtain ⟨other, listed, here⟩ := List.mem_filterMap.mp (BTreeMap.mem_of_getElem?_ofList found)
  obtain ⟨_, stored, same⟩ := Option.map_eq_some_iff.mp here
  cases same
  exact ⟨Std.ExtTreeSet.mem_toList.mp listed, stored⟩

/-- The decisions of a bound response, by subject. -/
theorem getElem?_bySubject {call : Consultation} {id : String} {decision : SubjectDecision}
    (bound : Bound call response)
    (found : (AdmissionCache.bySubject response.decisions)[id]? = some decision) :
    decision.subjectId = id ∧ id ∈ call.expected ∧ Answers call decision := by
  obtain ⟨other, listed, same⟩ := List.mem_map.mp (BTreeMap.mem_of_getElem?_ofList found)
  cases same
  refine ⟨rfl, mem_subjectIds.mpr ((bound.covers _).mp (List.mem_map_of_mem listed)), ?_⟩
  exact ⟨response, bound, listed⟩

/-! ## Where the cache's entry comes from -/

/-- The entry holds what the exchange of an earlier call answered. -/
structure EntryOf (call : Consultation) (entry : CachedDecisionSet) : Prop where
  policy : entry.policy = call.policyName
  fingerprint : entry.fingerprint = call.fingerprint
  fetchedAt : entry.fetchedAt = call.now
  decisions : ∀ {id decision}, entry.decisions[id]? = some decision →
    decision.subjectId = id ∧ Answers call decision

/-- The cache holds an entry of one of these calls, or none. -/
def Sourced (past : List Consultation) (cache : AdmissionCache) : Prop :=
  ∀ entry, cache.entry = some entry → ∃ call ∈ past, EntryOf call entry

/-- A decision that was fetched for this call's policy and endpoint, and is not too old. -/
def Current (past : List Consultation) (call : Consultation) (decision : SubjectDecision) : Prop :=
  ∃ source ∈ past, source.policyName = call.policyName ∧ source.fingerprint = call.fingerprint ∧
    call.now - source.now < cacheTtl ∧ Answers source decision

variable {past : List Consultation} {cache : AdmissionCache} {call : Consultation}
  {id : String} {decision : SubjectDecision}

theorem Sourced.mono (sourced : Sourced past cache) {more : List Consultation}
    (grown : past ⊆ more) : Sourced more cache := by
  intro entry stored
  obtain ⟨source, member, entryOf⟩ := sourced entry stored
  exact ⟨source, grown member, entryOf⟩

/-- What is read from a fresh entry is current. -/
theorem Sourced.fresh (sourced : Sourced past cache) {cached : CachedDecisionSet}
    (fresh : cache.fresh call = some cached)
    (found : (selectDecisions cached.decisions call.expected)[id]? = some decision) :
    id ∈ call.expected ∧ decision.subjectId = id ∧ Current past call decision := by
  obtain ⟨asked, found⟩ := getElem?_selectDecisions found
  obtain ⟨stored, recent⟩ := Option.filter_eq_some_iff.mp fresh
  simp only [Bool.and_eq_true, beq_iff_eq, decide_eq_true_eq] at recent
  obtain ⟨source, member, entryOf⟩ := sourced cached stored
  obtain ⟨named, answers⟩ := entryOf.decisions found
  refine ⟨asked, named, source, member, ?_, ?_, ?_, answers⟩
  · rw [← entryOf.policy, recent.1.1]
  · rw [← entryOf.fingerprint, recent.1.2]
  · rw [← entryOf.fetchedAt]
    exact recent.2

theorem Sourced.fallback (sourced : Sourced past cache) {error : String}
    (found : (cache.fallback call error).1[id]? = some decision) :
    id ∈ call.expected ∧ decision.subjectId = id ∧ Current past call decision := by
  unfold AdmissionCache.fallback at found
  cases fresh : cache.fresh call with
  | none => simp [fresh] at found
  | some cached =>
    rw [fresh] at found
    exact sourced.fresh fresh found

/-- **One call**: what it returns is asked for and current, counting its own exchange. -/
theorem Sourced.answer (sourced : Sourced past cache)
    (found : (cache.decisions call).2.1[id]? = some decision) :
    id ∈ call.expected ∧ decision.subjectId = id ∧ Current (past ++ [call]) call decision := by
  have grown := sourced.mono (List.subset_append_left past [call])
  unfold AdmissionCache.decisions at found
  split at found
  · rename_i cached complete
    exact grown.fresh (Option.filter_eq_some_iff.mp complete).1 found
  split at found
  · exact grown.fallback found
  split at found
  · rename_i response fetched
    obtain ⟨named, asked, answers⟩ := getElem?_bySubject (bound_of_fetched fetched) found
    refine ⟨asked, named, call, by simp, rfl, rfl, ?_, answers⟩
    rw [Nat.sub_self]
    decide
  · exact grown.fallback found

/-- **One call**: what it keeps comes from an earlier exchange or from its own. -/
theorem Sourced.decisions (sourced : Sourced past cache) :
    Sourced (past ++ [call]) (cache.decisions call).1 := by
  have grown := sourced.mono (List.subset_append_left past [call])
  unfold AdmissionCache.decisions
  split
  · exact grown
  split
  · exact grown
  split
  · rename_i response fetched
    rintro _ ⟨⟩
    refine ⟨call, by simp, rfl, rfl, rfl, fun found => ?_⟩
    obtain ⟨named, _, answers⟩ := getElem?_bySubject (bound_of_fetched fetched) found
    exact ⟨named, answers⟩
  · exact grown

/-! ## Runs -/

/-- A pass consults the policy, or finds no policy and forgets everything. -/
inductive Step where
  | consult (call : Consultation)
  | clear

def Step.call? : Step → Option Consultation
  | consult call => some call
  | clear => none

def AdmissionCache.step (cache : AdmissionCache) : Step → AdmissionCache
  | .consult call => (cache.decisions call).1
  | .clear => cache.clear

/-- The calls of a run. -/
def consultations (steps : List Step) : List Consultation := steps.filterMap Step.call?

theorem sourced_run (steps : List Step) :
    Sourced (consultations steps) (steps.foldl AdmissionCache.step {}) := by
  induction steps using List.reverseRecOn with
  | nil => exact fun _ stored => nomatch stored
  | append_singleton steps last ih =>
    rw [List.foldl_append, List.foldl_cons, List.foldl_nil, consultations, List.filterMap_append]
    cases last with
    | consult call => exact ih.decisions
    | clear => exact fun _ stored => nomatch stored

omit [Crypto] [Base64] [ExchangeJson] in
/-- A subject is allowed only on a decision about it. -/
theorem allowed_of_subjectStatus {actions : AdmissionActions} {decided : Decided}
    {subject : AdmissionSubject} {status : Status}
    (stated : (call.evaluation actions decided).subjectStatus subject = some status)
    (allowed : status.allowed = true) :
    ∃ decision, decided.1[subject.id]? = some decision ∧
      (judge actions decision.verdict).1 = true := by
  obtain ⟨_, _, rfl⟩ := Option.map_eq_some_iff.mp stated
  dsimp only [Consultation.evaluation] at allowed
  split at allowed
  · cases allowed
  · rename_i decision found
    exact ⟨decision, found, allowed⟩

/-- **Admission decisions are fresh and bound**: in every run with a clock that does not go back,
whatever the policies, endpoints, subjects and exchanges, a call returns decisions only on subjects
it was asked about; and a subject is allowed to move only on a decision that allows it, from the
answer to an exchange for the same policy and endpoint less than the lifetime ago, signed by the
pinned key, with that request's nonce and about exactly that request's subjects. Every other subject
is held. -/
theorem decisions_fresh_and_bound {steps : List Step} {call : Consultation}
    (forward : (consultations steps ++ [call]).Pairwise fun earlier later =>
      earlier.now ≤ later.now) :
    let decided := ((steps.foldl AdmissionCache.step {}).decisions call).2
    (∀ id, id ∈ decided.1 → id ∈ call.subjects.map (·.id)) ∧
    ∀ (actions : AdmissionActions) (subject : AdmissionSubject),
      ∃ status, (call.evaluation actions decided).subjectStatus subject = some status ∧
        (status.allowed = true → ∃ decision source,
          decided.1[subject.id]? = some decision ∧ decision.subjectId = subject.id ∧
          (judge actions decision.verdict).1 = true ∧
          source ∈ consultations steps ++ [call] ∧ source.policyName = call.policyName ∧
          source.fingerprint = call.fingerprint ∧ source.now ≤ call.now ∧
          call.now - source.now < cacheTtl ∧
          ∃ response, Bound source response ∧ decision ∈ response.decisions) := by
  have sourced := sourced_run steps
  constructor
  · intro id member
    obtain ⟨decision, found⟩ := Option.isSome_iff_exists.mp
      (Std.ExtTreeMap.mem_iff_isSome_getElem?.mp member)
    exact mem_subjectIds.mp (sourced.answer found).1
  · intro actions subject
    refine ⟨_, rfl, fun allowed => ?_⟩
    obtain ⟨decision, found, allows⟩ := allowed_of_subjectStatus rfl allowed
    obtain ⟨-, named, source, member, policy, fingerprint, recent, answers⟩ := sourced.answer found
    have before : source.now ≤ call.now := by
      rcases List.mem_append.mp member with earlier | here
      · exact (List.pairwise_append.mp forward).2.2 _ earlier _ (List.mem_singleton_self _)
      · rw [List.mem_singleton.mp here]
    exact ⟨decision, source, found, named, allows, member, policy, fingerprint, before, recent,
      answers⟩

end

end Updatedc.Admission

namespace Updatedc.Admission.Sample

open Contracts Updatedc.Sample

/-- One body is an answer, about the one subject. -/
scoped instance exchangeJson : ExchangeJson where
  request := ⟨fun _ => [], fun _ => .error "request"⟩
  response := ⟨fun _ => [1], fun body =>
    if body = [1] then .ok ⟨1, "n", "1", [⟨"s", .compliant, none⟩]⟩ else .error "response"⟩

def subject : AdmissionSubject := ⟨"s", .canonical 1⟩

/-- A call at this second. -/
def consultation (second : Nat) (wire : Wire) : Consultation where
  policyName := "p"
  fingerprint := "f"
  endpoint := ⟨"u", [], ⟨[1]⟩⟩
  «namespace» := "n"
  repository := "r"
  subjects := [subject]
  now := second * 10 ^ 9
  token := .ok "n"
  wire

/-- The exchange works. -/
def first : Consultation := consultation 0 (.answered true "200" (some "es256:s") (.ok [1]))

/-- Half a minute minus a second later the endpoint is gone. -/
def again : Consultation := consultation 29 (.failed "gone")

def actions : AdmissionActions := ⟨.block, .block⟩

/-- The subject may still move, on the first answer. -/
theorem decisions_fresh_and_bound_cached :
    let decided := (([.consult first].foldl AdmissionCache.step {}).decisions again).2
    ((again.evaluation actions decided).subjectStatus subject).any (·.allowed) = true ∧
      ∃ source ∈ [first, again], source.policyName = "p" ∧
        again.now - source.now < cacheTtl ∧ ∃ response, Bound source response := by
  have forward : (consultations [.consult first] ++ [again]).Pairwise fun earlier later =>
      earlier.now ≤ later.now := by
    simp [consultations, Step.call?, first, again, consultation]
  obtain ⟨status, stated, justified⟩ := (decisions_fresh_and_bound forward).2 actions subject
  have allowed : ((again.evaluation actions
      (([Step.consult first].foldl AdmissionCache.step {}).decisions again).2).subjectStatus
        subject).any (·.allowed) = true := by
    decide
  refine ⟨allowed, ?_⟩
  rw [stated] at allowed
  obtain ⟨_, source, -, -, -, member, policy, -, -, recent, response, bound, -⟩ := justified allowed
  exact ⟨source, member, policy, recent, response, bound⟩

end Updatedc.Admission.Sample
