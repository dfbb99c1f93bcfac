import RpcGateway.Proofs.Gateway.Transparency
/-!
# Headers do no harm

Whatever the headers of a request are, the metadata made of them can be sent, so that a call fails before it
is made through its method only. None of the gateway's failures is one of a metadata key or value, and what
belongs to the exchange with the gateway does not travel on.
-/
namespace RpcGateway

open Outcome (bind_eq_error_iff mapError_eq_error_iff)

namespace Call

private theorem prepare_metadataOf (method : String) (payload : Bytes) (headers : Headers)
    (targetName : Header.Name) :
    (prepare method payload (Gateway.metadataOf headers targetName)).map Call.path =
      (pathOf method).mapError (.invalidMethod method) := by
  obtain ⟨metadata, hmetadata⟩ := Gateway.addMetadata_metadataOf headers targetName
  rw [prepare, hmetadata]
  cases pathOf method <;> rfl

private theorem prepare_metadataOf_error {method : String} {payload : Bytes} {headers : Headers}
    {targetName : Header.Name} {e : CallError}
    (h : prepare method payload (Gateway.metadataOf headers targetName) = .error e) :
    ∃ reason, pathOf method = .error reason ∧ e = .invalidMethod method reason := by
  have hpath := prepare_metadataOf method payload headers targetName
  rw [h] at hpath
  cases hmethod : pathOf method with
  | ok path =>
    rw [hmethod] at hpath
    cases hpath
  | error reason =>
    rw [hmethod] at hpath
    exact ⟨reason, rfl, Except.error.inj hpath⟩

private theorem dial_metadataOf_error {find : Endpoint → Link Backend} {target : Target} {method : String}
    {payload : Bytes} {headers : Headers} {targetName : Header.Name} {limit : Duration} {e : DialError}
    (h : (dial find target method payload (Gateway.metadataOf headers targetName) limit).outcome =
      .error e) :
    (∃ reason, e = .link reason) ∨
      (∃ reason, pathOf method = .error reason ∧ e = .call (.invalidMethod method reason)) ∨
      e = .call (.timeout limit) := by
  rw [dial] at h
  cases hconnect : connect find target limit with
  | error reason =>
    rw [hconnect] at h
    cases h
    exact .inl ⟨reason, rfl⟩
  | ok reached =>
    rw [hconnect] at h
    simp only [make] at h
    cases hprepare : prepare method payload (Gateway.metadataOf headers targetName) with
    | error fault =>
      rw [hprepare] at h
      cases h
      obtain ⟨reason, hpath, rfl⟩ := prepare_metadataOf_error hprepare
      exact .inr (.inl ⟨reason, hpath, rfl⟩)
    | ok call =>
      rw [hprepare] at h
      simp only [await] at h
      split at h
      · cases h
        exact .inr (.inr rfl)
      · cases h

end Call

namespace Gateway

/-- A pair that may travel on with a call. -/
structure MayTravel (targetName : Header.Name) (pair : String × String) : Prop where
  target : pair.1 ≠ targetName.text
  exchange : pair.1 ∉ exchangeNames
  proxy : ¬ "proxy-".toList <+: pair.1.toList
  grpc : ¬ "grpc-".toList <+: pair.1.toList
  binary : ¬ "-bin".toList <:+ pair.1.toList

private theorem mayTravel_metadataOf {headers : Headers} {targetName : Header.Name} {pair : String × String}
    (h : pair ∈ metadataOf headers targetName) : MayTravel targetName pair := by
  obtain ⟨⟨name, value⟩, -, hmade⟩ := List.mem_filterMap.mp h
  rw [Option.ite_none_right_eq_some, Option.map_eq_some_iff] at hmade
  obtain ⟨⟨hother, hforwarded⟩, text, -, rfl⟩ := hmade
  simp only [isForwarded, Bool.and_eq_true, Bool.not_eq_true', ← Bool.not_eq_true,
    List.isPrefixOf_iff_prefix, List.isSuffixOf_iff_suffix, List.contains_iff_mem] at hforwarded
  obtain ⟨⟨⟨hexchange, hproxy⟩, hgrpc⟩, hbinary⟩ := hforwarded
  refine ⟨?_, hexchange, hproxy, hgrpc, hbinary⟩
  intro hsame
  apply hother
  cases name
  cases targetName
  cases hsame
  rfl

/-- The failures that say that a key or a value of metadata cannot be sent. -/
inductive IsMetadataFault : Failure → Prop
  | key (key : String) : IsMetadataFault (.call (.call (.invalidKey key)))
  | value (key : String) : IsMetadataFault (.call (.call (.invalidValue key)))

variable {settings : Settings} {headers : Headers} {e : Failure}

private theorem targetOf_ne_call {name : Header.Name} (h : targetOf headers name = .error e)
    (reason : DialError) : e ≠ .call reason := by
  rw [targetOf] at h
  rintro rfl
  split at h
  · cases h
  · split at h
    · cases h
    · obtain ⟨fault, -, heq⟩ := mapError_eq_error_iff.mp h
      cases heq

private theorem readPayload_ne_call {encoding : Web.Encoding} {request : Http.Request}
    (h : readPayload settings encoding request = .error e) (reason : DialError) :
    e ≠ .call reason := by
  rintro rfl
  rcases bind_eq_error_iff.mp h with hbody | ⟨body, -, hcontent⟩
  · rw [bodyWithin] at hbody
    split at hbody
    · cases hbody
    · split at hbody <;> cases hbody
  · obtain ⟨fault, -, heq⟩ := mapError_eq_error_iff.mp hcontent
    cases heq

private theorem answerResponse_ne_call {encoding : Web.Encoding} {answer : Except Status Bytes}
    (h : answerResponse encoding answer = .error e) (reason : DialError) : e ≠ .call reason := by
  rintro rfl
  rcases bind_eq_error_iff.mp h with hbody | ⟨body, -, hresponse⟩
  · obtain ⟨fault, -, heq⟩ := mapError_eq_error_iff.mp hbody
    cases heq
  · cases hresponse

private theorem sendOn_ne_call {link : Link Site} {limit : Duration} {request : Http.Request}
    (h : sendOn link limit request = .error e) (reason : DialError) : e ≠ .call reason := by
  rintro rfl
  cases link with
  | refused => cases h
  | reached site delay =>
    simp only [sendOn] at h
    by_cases hslow : limit.nanoseconds < delay.nanoseconds
    · rw [if_pos hslow] at h
      cases h
    · rw [if_neg hslow] at h
      by_cases hbroken : request.body.failure.isSome = true
      · rw [if_pos hbroken] at h
        cases h
      · rw [if_neg hbroken] at h
        by_cases hlate :
            limit.nanoseconds < delay.nanoseconds + (site request).2.nanoseconds
        · rw [if_pos hlate] at h
          cases h
        · rw [if_neg hlate] at h
          cases h

private theorem relayCall_ne_call {find : Uri → Link Site} {target : Target} {method : List Char}
    {request : Http.Request} (h : relayCall settings find target method request = .error e)
    (reason : DialError) : e ≠ .call reason := by
  rcases bind_eq_error_iff.mp h with huri | ⟨uri, -, hsent⟩
  · obtain ⟨fault, -, rfl⟩ := mapError_eq_error_iff.mp huri
    simp
  · exact sendOn_ne_call hsent reason

private theorem not_isMetadataFault_of_ne_call (h : ∀ reason, e ≠ .call reason) : ¬ IsMetadataFault e := by
  rintro (key | key)
  · exact h _ rfl
  · exact h _ rfl

private theorem webCall_not_isMetadataFault {find : Endpoint → Link Backend} {target : Target}
    {method : String} {encoding : Web.Encoding} {request : Http.Request}
    (h : (webCall settings find target method encoding request).result = .error e) :
    ¬ IsMetadataFault e := by
  rw [webCall] at h
  cases hpayload : readPayload settings encoding request with
  | error fault =>
    rw [hpayload] at h
    cases h
    exact not_isMetadataFault_of_ne_call (readPayload_ne_call hpayload)
  | ok payload =>
    rw [hpayload] at h
    rcases bind_eq_error_iff.mp h with hdial | ⟨answer, -, hresponse⟩
    · obtain ⟨fault, hfault, rfl⟩ := mapError_eq_error_iff.mp hdial
      rcases Call.dial_metadataOf_error hfault with ⟨reason, rfl⟩ | ⟨reason, -, rfl⟩ | rfl <;>
        rintro ⟨⟩
    · exact not_isMetadataFault_of_ne_call (answerResponse_ne_call hresponse)

variable {σ : Type} {network : Network σ}

private theorem answerCall_not_isMetadataFault {method : List Char} {request : Http.Request}
    (h : (answerCall settings network method request).result = .error e) : ¬ IsMetadataFault e := by
  rw [answerCall] at h
  split at h
  · rename_i fault htarget
    cases h
    exact not_isMetadataFault_of_ne_call (targetOf_ne_call htarget)
  · split at h
    · exact not_isMetadataFault_of_ne_call (relayCall_ne_call h)
    · exact webCall_not_isMetadataFault h

private theorem discoverAt_ne_call {target : Target} {limit : Duration} {t t' : Reflection.Trace σ}
    (h : discoverAt network target limit t = (t', .error e)) (reason : DialError) :
    e ≠ .call reason := by
  rintro rfl
  rw [discoverAt] at h
  split at h
  · cases h
  · simp only [] at h
    split at h <;> cases h

private theorem describeTarget_not_isMetadataFault {directory : String} {state state' : State σ}
    (h : describeTarget settings network directory state headers = (state', .error e)) :
    ¬ IsMetadataFault e := by
  apply not_isMetadataFault_of_ne_call
  intro reason
  rw [describeTarget] at h
  split at h
  · rename_i fault htarget
    cases h
    exact targetOf_ne_call htarget reason
  · split at h
    · rename_i trace fault hdiscovered
      cases h
      exact discoverAt_ne_call hdiscovered reason
    · split at h
      · rename_i disk fault hwritten
        cases h
        rw [writeDescription] at hwritten
        split at hwritten
        · cases hwritten
          simp
        · cases hwritten
      · cases h

/-- The failures with which a route that is followed can end. -/
inductive FailsWith (settings : Settings) (network : Network σ) (directory : String) (state : State σ)
    (request : Http.Request) : Route → Failure → Prop
  | call {part method : List Char} {e : Failure} (named : unescaped? part = some method)
    (failed : (answerCall settings network method request).result = .error e) :
    FailsWith settings network directory state request (.call part) e
  | describe {state' : State σ} {e : Failure} (read : isRead request = true)
    (failed : describeTarget settings network directory state request.headers = (state', .error e)) :
    FailsWith settings network directory state request .describe e

variable {directory : String} {state : State σ} {request : Http.Request} {route : Route}

theorem FailsWith.response (h : FailsWith settings network directory state request route e) :
    (follow settings network directory state request route).response = e.response := by
  cases h with
  | call hnamed hfailed =>
    simp only [follow, hnamed, hfailed]
    rfl
  | describe hread hfailed =>
    simp only [follow, if_pos hread, hfailed]
    rfl

private theorem FailsWith.not_isMetadataFault
    (h : FailsWith settings network directory state request route e) : ¬ IsMetadataFault e := by
  cases h with
  | call _ hfailed => exact answerCall_not_isMetadataFault hfailed
  | describe _ hfailed => exact describeTarget_not_isMetadataFault hfailed

/-- The metadata made of any headers can be sent, and no pair of it has the name of the target header or one
that belongs to the exchange. So whether a call can be prepared depends on its method alone, and whatever is
asked of the gateway, it does not fail for a key or a value of metadata. -/
theorem headers_areHarmless :
    (∀ headers targetName, ∃ metadata,
      Call.addMetadata .empty (metadataOf headers targetName) = .ok metadata) ∧
    (∀ headers targetName, ∀ pair ∈ metadataOf headers targetName, MayTravel targetName pair) ∧
    (∀ method payload headers targetName,
      (Call.prepare method payload (metadataOf headers targetName)).map Call.path =
        (Call.pathOf method).mapError (.invalidMethod method)) ∧
    (∀ (σ : Type) (settings : Settings) (network : Network σ) (directory : String) (state : State σ)
      (request : Http.Request) (route : Route) (e : Failure),
      FailsWith settings network directory state request route e →
        (follow settings network directory state request route).response = e.response ∧
          ¬ IsMetadataFault e) := by
  refine ⟨addMetadata_metadataOf, fun _ _ _ => mayTravel_metadataOf, Call.prepare_metadataOf, ?_⟩
  intro σ settings network directory state request route e h
  exact ⟨h.response, h.not_isMetadataFault⟩

/-- Headers of which one may travel on, with a tab in its value. -/
def mixedHeaders : Headers :=
  ((((Headers.empty.insert Header.defaultTarget (.ofText "localhost:50051")).insert
    ⟨"x-grpc-web", by decide⟩ (.ofText "1")).insert ⟨"grpc-timeout", by decide⟩ (.ofText "1S")).insert
    ⟨"trace-bin", by decide⟩ (.ofText "AAEC")).insert Sample.tenantName (.ofText "a\tb")

def idleState : State Unit := ⟨.empty, .start ()⟩

/-- Nothing answers where the headers point to, and this is what the gateway says. -/
theorem headers_areHarmless_mixed :
    metadataOf mixedHeaders Header.defaultTarget = [("x-tenant", "a\tb")] ∧
      (∃ metadata, Call.addMetadata .empty (metadataOf mixedHeaders Header.defaultTarget) =
        .ok metadata) ∧
      MayTravel Header.defaultTarget ("x-tenant", "a\tb") ∧
      (follow { workdir := [] } Network.silent "" idleState { echoAsked with method := "GET" }
        .describe).response = (Failure.link (.failed "localhost:50051")).response ∧
      ¬ IsMetadataFault (.link (.failed "localhost:50051")) := by
  obtain ⟨hsent, htravel, -, hfails⟩ := headers_areHarmless
  have hpairs : metadataOf mixedHeaders Header.defaultTarget = [("x-tenant", "a\tb")] := by
    decide +kernel
  have hfailed : describeTarget { workdir := [] } Network.silent "" idleState echoAsked.headers =
      (idleState, .error (.link (.failed "localhost:50051"))) := by
    simp only [describeTarget, targetOf_echoAsked]
    rfl
  exact ⟨hpairs, hsent _ _, htravel mixedHeaders _ _ (hpairs ▸ List.mem_singleton_self _),
    hfails _ _ _ _ _ { echoAsked with method := "GET" } _ _ (.describe rfl hfailed)⟩

end Gateway

end RpcGateway
