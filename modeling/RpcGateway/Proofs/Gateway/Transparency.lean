import RpcGateway.Gateway.Route
import RpcGateway.Proofs.Gateway.Metadata
import RpcGateway.Proofs.Outcome
import RpcGateway.Proofs.Web.Framing
import RpcGateway.Sample.Echo
import RpcGateway.Sample.Reflection
/-!
# Web calls are transparent

A web request either asks for one call or is refused. In the first case the backend gets exactly this call
and the response says what it answered; in the second nothing is sent to anyone.
-/
namespace RpcGateway

open Outcome (bind_eq_ok_iff mapError_eq_ok_iff)

theorem Call.prepare_ok_iff {method : String} {payload : Bytes} {headers : List (String × String)}
    {call : Call} :
    prepare method payload headers = .ok call ↔
      pathOf method = .ok call.path ∧ call.payload = payload ∧
        ∃ metadata, addMetadata .empty headers = .ok metadata ∧
          call.metadata = sentMetadata metadata := by
  simp only [prepare, bind_eq_ok_iff, mapError_eq_ok_iff]
  constructor
  · rintro ⟨path, hpath, metadata, hmetadata, hcall⟩
    cases hcall
    exact ⟨hpath, rfl, metadata, hmetadata, rfl⟩
  · obtain ⟨path, sent, payload'⟩ := call
    rintro ⟨hpath, hpayload, metadata, hmetadata, hsent⟩
    cases hpayload
    cases hsent
    exact ⟨path, hpath, metadata, hmetadata, rfl⟩

private theorem connect_map {α β : Type} (find : Endpoint → Link α) (view : α → β) (target : Target)
    (limit : Duration) :
    connect (fun endpoint => (find endpoint).map view) target limit =
      (connect find target limit).map fun (peer, delay) => (view peer, delay) := by
  rw [connect, connect]
  cases Endpoint.ofTarget target with
  | error e => rfl
  | ok endpoint =>
    cases hlink : find endpoint with
    | refused => simp [bind, Except.bind, hlink, Link.map, throw, throwThe, MonadExceptOf.throw,
        Except.map]
    | reached peer delay =>
      simp only [bind, Except.bind, hlink, Link.map]
      by_cases hlate : limit.nanoseconds < delay.nanoseconds
      · simp [hlate, throw, throwThe, MonadExceptOf.throw, Except.map]
      · simp [hlate, pure, Except.pure, Except.map]

namespace Gateway

open Web (Encoding)

/-- A web request asks for a call of a target. `part` is the part of its path that names the method. -/
structure Asks (settings : Settings) (part : List Char) (encoding : Encoding)
    (request : Http.Request) (target : Target) (call : Call) : Prop where
  target : targetOf request.headers settings.targetName = .ok target
  complete : request.body.failure = none
  short : request.body.bytes.length ≤ settings.maxBody
  payload : Web.requestPayload encoding request.body.bytes = .ok call.payload
  path : ∃ method, unescaped? part = some method ∧
    Call.pathOf (String.ofList method) = .ok call.path
  metadata : ∃ metadata,
    Call.addMetadata .empty (metadataOf request.headers settings.targetName) = .ok metadata ∧
      call.metadata = Call.sentMetadata metadata

/-- A response carries the answer of a backend in the frames of its body. -/
structure IsAnswer (encoding : Encoding) (result : Except Status Bytes)
    (response : Http.Response) : Prop where
  status : response.status = 200
  contentType : response.headers.values Header.contentType = [.ofText encoding.contentType]
  contentLength :
    response.headers.values Header.contentLength = [.ofText (toString response.body.length)]
  frames : ∃ bytes, encoding.toBinary response.body = .ok bytes ∧
    Web.readFrames bytes = .ok (Web.framesOf result)

/-- A web request whose first fault is that its body is too long. -/
structure IsOversized (settings : Settings) (part : List Char) (request : Http.Request) : Prop where
  path : ∃ method, unescaped? part = some method
  target : ∃ target, targetOf request.headers settings.targetName = .ok target
  long : settings.maxBody < request.body.bytes.length

/-- A response says that the body of its request is too long, or that the request has another fault. -/
structure IsRefusal (settings : Settings) (part : List Char) (request : Http.Request)
    (response : Http.Response) : Prop where
  status : (response.status = 413 ∧ IsOversized settings part request) ∨
    (response.status = 400 ∧ ¬ IsOversized settings part request)
  contentType :
    response.headers.values Header.contentType = [.ofText Http.Response.plainText]

/-- What a web request comes to, if the gateway adds nothing to the call and takes nothing from it. -/
structure IsTransparent {σ : Type} (settings : Settings) (network : Network σ) (part : List Char)
    (encoding : Encoding) (request : Http.Request) (calls : List Call) (response : Http.Response) :
    Prop where
  once : calls.length ≤ 1
  answered : ∀ target call peer delay, Asks settings part encoding request target call →
    connect network.peer target settings.timeout = .ok (peer, delay) →
    delay.nanoseconds + (peer.backend call).delay.nanoseconds ≤ settings.timeout.nanoseconds →
    (∀ f ∈ Web.framesOf (peer.backend call).result, f.Fits) →
    calls = [call] ∧ IsAnswer encoding (peer.backend call).result response
  idle : (∀ target call peer delay, Asks settings part encoding request target call →
    connect network.peer target settings.timeout ≠ .ok (peer, delay)) → calls = []
  refused : (∀ target call, ¬ Asks settings part encoding request target call) →
    (∀ target, targetOf request.headers settings.targetName = .ok target →
      ∃ peer delay, connect network.peer target settings.timeout = .ok (peer, delay)) →
    IsRefusal settings part request response

variable {settings : Settings} {encoding : Encoding} {request : Http.Request} {part : List Char}
  {method : List Char} {target : Target}

private theorem Asks.unique {target' : Target} {call call' : Call}
    (h : Asks settings part encoding request target call)
    (h' : Asks settings part encoding request target' call') : target = target' ∧ call = call' := by
  obtain ⟨path, metadata, payload⟩ := call
  obtain ⟨path', metadata', payload'⟩ := call'
  obtain ⟨method, hmethod, hpath⟩ := h.path
  obtain ⟨method', hmethod', hpath'⟩ := h'.path
  obtain ⟨added, hadded, hsent⟩ := h.metadata
  obtain ⟨added', hadded', hsent'⟩ := h'.metadata
  cases h.target.symm.trans h'.target
  cases h.payload.symm.trans h'.payload
  cases hmethod.symm.trans hmethod'
  cases hpath.symm.trans hpath'
  cases hadded.symm.trans hadded'
  cases hsent.trans hsent'.symm
  exact ⟨rfl, rfl⟩

private theorem bodyWithin_ok_iff {limit : Nat} {body : Http.Body} {bytes : Bytes} :
    bodyWithin limit body = .ok bytes ↔
      body.bytes.length ≤ limit ∧ body.failure = none ∧ body.bytes = bytes := by
  rw [bodyWithin]
  by_cases hlong : limit < body.bytes.length
  · simp [hlong, Nat.not_le_of_lt hlong]
  · cases hfailure : body.failure <;> simp [hlong, Nat.le_of_not_lt hlong]

private theorem readPayload_ok_iff {payload : Bytes} :
    readPayload settings encoding request = .ok payload ↔
      request.body.bytes.length ≤ settings.maxBody ∧ request.body.failure = none ∧
        Web.requestPayload encoding request.body.bytes = .ok payload := by
  simp only [readPayload, bind_eq_ok_iff, mapError_eq_ok_iff, bodyWithin_ok_iff]
  constructor
  · rintro ⟨bytes, ⟨hshort, hcomplete, rfl⟩, hpayload⟩
    exact ⟨hshort, hcomplete, hpayload⟩
  · rintro ⟨hshort, hcomplete, hpayload⟩
    exact ⟨_, ⟨hshort, hcomplete, rfl⟩, hpayload⟩

private theorem asks_iff (htarget : targetOf request.headers settings.targetName = .ok target)
    (hmethod : unescaped? part = some method) {call : Call} :
    Asks settings part encoding request target call ↔
      readPayload settings encoding request = .ok call.payload ∧
        Call.prepare (String.ofList method) call.payload
          (metadataOf request.headers settings.targetName) = .ok call := by
  rw [readPayload_ok_iff, Call.prepare_ok_iff]
  constructor
  · intro h
    obtain ⟨other, hother, hpath⟩ := h.path
    cases hmethod.symm.trans hother
    exact ⟨⟨h.short, h.complete, h.payload⟩, hpath, rfl, h.metadata⟩
  · rintro ⟨⟨hshort, hcomplete, hpayload⟩, hpath, -, hmetadata⟩
    exact ⟨htarget, hcomplete, hshort, hpayload, ⟨method, hmethod, hpath⟩, hmetadata⟩

private theorem unframe_ne_tooLarge (body : Bytes) (size : Nat) :
    Web.unframe body ≠ .error (.tooLarge size) := by
  rw [Web.unframe.eq_def]
  split <;> try simp
  split
  · simp
  · split <;> simp

private theorem requestPayload_ne_tooLarge (body : Bytes) (size : Nat) :
    Web.requestPayload encoding body ≠ .error (.tooLarge size) := by
  cases encoding with
  | binary => exact unframe_ne_tooLarge body size
  | text =>
    rw [Web.requestPayload]
    cases Base64.decode (Blank.trimBy Web.isBodyBlank body) with
    | error e =>
      intro h
      cases h
    | ok bytes => exact unframe_ne_tooLarge bytes size

theorem Failure.isRefusal {e : Failure}
    (h : (e.status = 413 ∧ IsOversized settings part request) ∨
      (e.status = 400 ∧ ¬ IsOversized settings part request)) :
    IsRefusal settings part request e.response :=
  ⟨h, Headers.values_insert_self _ _⟩

private theorem isRefusal_unreadablePath (h : unescaped? part = none) :
    IsRefusal settings part request unreadablePath := by
  refine ⟨Or.inr ⟨rfl, ?_⟩, Headers.values_insert_self _ _⟩
  rintro ⟨⟨method, hsome⟩, -, -⟩
  cases h.symm.trans hsome

private theorem status_of_targetOf_error {headers : Headers} {name : Header.Name} {e : Failure}
    (h : targetOf headers name = .error e) : e.status = 400 := by
  rw [targetOf] at h
  cases hvalue : headers.get? name with
  | none =>
    rw [hvalue] at h
    cases h
    rfl
  | some value =>
    simp only [hvalue] at h
    cases htext : value.text? with
    | none =>
      rw [htext] at h
      cases h
      rfl
    | some address =>
      simp only [htext] at h
      cases haddress : Target.ofAddress address with
      | error reason =>
        rw [haddress] at h
        cases h
        rfl
      | ok target =>
        rw [haddress] at h
        cases h

private theorem isRefusal_of_targetOf_error {e : Failure}
    (h : targetOf request.headers settings.targetName = .error e) :
    IsRefusal settings part request e.response := by
  refine Failure.isRefusal (Or.inr ⟨status_of_targetOf_error h, ?_⟩)
  rintro ⟨-, ⟨target, hok⟩, -⟩
  cases h.symm.trans hok

private theorem status_of_readPayload_error {e : Failure}
    (h : readPayload settings encoding request = .error e) :
    (e.status = 413 ∧ settings.maxBody < request.body.bytes.length) ∨
      (e.status = 400 ∧ ¬ settings.maxBody < request.body.bytes.length) := by
  rw [readPayload, bodyWithin] at h
  by_cases hlong : settings.maxBody < request.body.bytes.length
  · rw [if_pos hlong] at h
    cases h
    exact Or.inl ⟨rfl, hlong⟩
  · refine Or.inr ⟨?_, hlong⟩
    rw [if_neg hlong] at h
    cases hfailure : request.body.failure with
    | some reason =>
      rw [hfailure] at h
      cases h
      rfl
    | none =>
      simp only [hfailure, bind, Except.bind] at h
      cases hpayload : Web.requestPayload encoding request.body.bytes with
      | ok payload =>
        rw [hpayload] at h
        cases h
      | error reason =>
        rw [hpayload] at h
        cases h
        cases reason with
        | tooLarge size => exact absurd hpayload (requestPayload_ne_tooLarge _ size)
        | _ => rfl

private theorem isRefusal_of_readPayload_error
    (htarget : targetOf request.headers settings.targetName = .ok target)
    (hmethod : unescaped? part = some method) {e : Failure}
    (h : readPayload settings encoding request = .error e) :
    IsRefusal settings part request e.response := by
  apply Failure.isRefusal
  rcases status_of_readPayload_error h with ⟨hstatus, hlong⟩ | ⟨hstatus, hshort⟩
  · exact Or.inl ⟨hstatus, ⟨method, hmethod⟩, ⟨target, htarget⟩, hlong⟩
  · exact Or.inr ⟨hstatus, fun hover => hshort hover.long⟩

private theorem isRefusal_of_prepare_error {e : CallError} {payload : Bytes}
    (hpayload : readPayload settings encoding request = .ok payload)
    (h : Call.prepare (String.ofList method) payload
      (metadataOf request.headers settings.targetName) = .error e) :
    IsRefusal settings part request (Failure.call (.call e)).response := by
  have hshort := (readPayload_ok_iff.mp hpayload).1
  refine Failure.isRefusal (Or.inr ⟨?_, fun hover => Nat.not_lt_of_le hshort hover.long⟩)
  obtain ⟨metadata, hmetadata⟩ := addMetadata_metadataOf request.headers settings.targetName
  rw [Call.prepare, hmetadata] at h
  cases hpath : Call.pathOf (String.ofList method) with
  | error reason =>
    rw [hpath] at h
    cases h
    rfl
  | ok path =>
    rw [hpath] at h
    cases h

private theorem answerResponse_isAnswer (encoding : Encoding) {result : Except Status Bytes}
    (h : ∀ f ∈ Web.framesOf result, f.Fits) :
    ∃ response, answerResponse encoding result = .ok response ∧
      IsAnswer encoding result response := by
  obtain ⟨body, bytes, hbody, hbinary, hframes⟩ := Web.answerBody_reads encoding h
  refine ⟨(Http.Response.ofBytes 200 encoding.contentType body).withLength, ?_, ?_⟩
  · rw [answerResponse, hbody]
    rfl
  · have hnew : ((Http.Response.ofBytes 200 encoding.contentType body).headers.get?
        Header.contentLength).isSome = false := by
      rw [Headers.get?, Http.Response.ofBytes, Headers.values_insert_of_ne _ _ (by decide)]
      rfl
    rw [Http.Response.withLength, if_neg (by simp [hnew])]
    refine ⟨rfl, ?_, Headers.values_insert_self _ _, bytes, hbinary, hframes⟩
    show Headers.values (Headers.insert _ _ _) _ = _
    rw [Headers.values_insert_of_ne _ _ (by decide)]
    exact Headers.values_insert_self _ _

variable {σ : Type} {network : Network σ}

private theorem IsTransparent.of_isRefusal {response : Http.Response}
    (hnone : ∀ target call, ¬ Asks settings part encoding request target call)
    (hrefusal : IsRefusal settings part request response) :
    IsTransparent settings network part encoding request [] response :=
  ⟨Nat.zero_le 1, fun target call _ _ hasks => absurd hasks (hnone target call), fun _ => rfl,
    fun _ _ => hrefusal⟩

private theorem IsTransparent.of_unreached {response : Http.Response} {e : LinkError}
    (htarget : targetOf request.headers settings.targetName = .ok target)
    (hconnect : connect network.peer target settings.timeout = .error e) :
    IsTransparent settings network part encoding request [] response := by
  refine ⟨Nat.zero_le 1, ?_, fun _ => rfl, ?_⟩
  · intro other call peer delay hasks hreached
    cases htarget.symm.trans hasks.target
    cases hconnect.symm.trans hreached
  · intro _ hreachable
    obtain ⟨peer, delay, hreached⟩ := hreachable target htarget
    cases hconnect.symm.trans hreached

/-- The call that was asked for is made, and if it is answered well the response says so. -/
private theorem IsTransparent.of_isAnswer {response : Http.Response} {call : Call} {peer : Peer σ}
    {delay : Duration} (hasks : Asks settings part encoding request target call)
    (hconnect : connect network.peer target settings.timeout = .ok (peer, delay))
    (hanswer :
      delay.nanoseconds + (peer.backend call).delay.nanoseconds ≤ settings.timeout.nanoseconds →
      (∀ f ∈ Web.framesOf (peer.backend call).result, f.Fits) →
      IsAnswer encoding (peer.backend call).result response) :
    IsTransparent settings network part encoding request [call] response := by
  refine ⟨Nat.le_refl 1, ?_, ?_, ?_⟩
  · intro target' call' peer' delay' hasks' hreached htime hfits
    obtain ⟨rfl, rfl⟩ := hasks.unique hasks'
    cases hconnect.symm.trans hreached
    exact ⟨rfl, hanswer htime hfits⟩
  · intro hnone
    exact absurd hconnect (hnone target call peer delay hasks)
  · intro hnone
    exact absurd hasks (hnone target call)

private theorem webCall_isTransparent (htarget : targetOf request.headers settings.targetName = .ok target)
    (hmethod : unescaped? part = some method) :
    IsTransparent settings network part encoding request
      (webCall settings (fun endpoint => (network.peer endpoint).map Peer.backend) target
        (String.ofList method) encoding request).calls
      (responseOf (webCall settings (fun endpoint => (network.peer endpoint).map Peer.backend) target
        (String.ofList method) encoding request).result) := by
  rw [webCall]
  cases hpayload : readPayload settings encoding request with
  | error e =>
    apply IsTransparent.of_isRefusal
    · intro other call hasks
      cases htarget.symm.trans hasks.target
      cases hpayload.symm.trans ((asks_iff htarget hmethod).mp hasks).1
    · exact isRefusal_of_readPayload_error htarget hmethod hpayload
  | ok payload =>
    simp only [Call.dial, connect_map]
    cases hconnect : connect network.peer target settings.timeout with
    | error e => exact .of_unreached htarget hconnect
    | ok link =>
      obtain ⟨peer, delay⟩ := link
      simp only [Except.map, Call.make]
      cases hprepare : Call.prepare (String.ofList method) payload
          (metadataOf request.headers settings.targetName) with
      | error e =>
        apply IsTransparent.of_isRefusal
        · intro other call hasks
          cases htarget.symm.trans hasks.target
          obtain ⟨hread, hcall⟩ := (asks_iff htarget hmethod).mp hasks
          cases hpayload.symm.trans hread
          cases hprepare.symm.trans hcall
        · exact isRefusal_of_prepare_error hpayload hprepare
      | ok call =>
        have hsent : call.payload = payload := (Call.prepare_ok_iff.mp hprepare).2.1
        have hasks : Asks settings part encoding request target call := by
          rw [asks_iff htarget hmethod, hsent]
          exact ⟨hpayload, hprepare⟩
        apply IsTransparent.of_isAnswer hasks hconnect
        intro htime hfits
        obtain ⟨response, hresponse, hanswer⟩ := answerResponse_isAnswer encoding hfits
        have hawait : Call.await settings.timeout (peer.backend.after delay call) =
            .ok (peer.backend call).result := if_neg (Nat.not_lt_of_le htime)
        simp only [hawait, Outcome.mapError_ok, Except.bind, hresponse]
        exact hanswer

private theorem follow_isTransparent (settings : Settings) (network : Network σ) (directory : String)
    (state : State σ) (part : List Char)
    (hweb : Protocol.ofHeaders request.headers = .web encoding) :
    IsTransparent settings network part encoding request
      (follow settings network directory state request (.call part)).calls
      (follow settings network directory state request (.call part)).response := by
  rw [follow]
  cases hmethod : unescaped? part with
  | none =>
    apply IsTransparent.of_isRefusal
    · intro target call hasks
      obtain ⟨method, hsome, -⟩ := hasks.path
      cases hmethod.symm.trans hsome
    · exact isRefusal_unreadablePath hmethod
  | some method =>
    simp only [answerCall]
    cases htarget : targetOf request.headers settings.targetName with
    | error e =>
      apply IsTransparent.of_isRefusal
      · intro target call hasks
        cases htarget.symm.trans hasks.target
      · exact isRefusal_of_targetOf_error htarget
    | ok target =>
      simp only [hweb]
      exact webCall_isTransparent htarget hmethod

private theorem values_identified {name : Header.Name} (h : name ≠ Header.requestId) (id : Header.Value)
    (headers : Headers) : (identified id headers).values name = headers.values name := by
  rw [identified]
  split
  · rfl
  · exact Headers.values_insert_of_ne _ _ h

theorem ofHeaders_identified (id : Header.Value) (headers : Headers) :
    Protocol.ofHeaders (identified id headers) = Protocol.ofHeaders headers := by
  simp only [Protocol.ofHeaders, Headers.get?,
    values_identified (show Header.contentType ≠ Header.requestId by decide)]

/-- A response as it leaves the gateway, with its length and its identity. -/
def outgoing (id : Header.Value) (response : Http.Response) : Http.Response :=
  { response.withLength with headers := identified id response.withLength.headers }

private theorem IsAnswer.outgoing {result : Except Status Bytes} {response : Http.Response}
    (h : IsAnswer encoding result response) (id : Header.Value) :
    IsAnswer encoding result (outgoing id response) := by
  have hsame : response.withLength = response := by
    rw [Http.Response.withLength, Headers.get?, h.contentLength]
    rfl
  rw [Gateway.outgoing, hsame]
  refine ⟨h.status, ?_, ?_, h.frames⟩
  · exact (values_identified (by decide) id response.headers).trans h.contentType
  · exact (values_identified (by decide) id response.headers).trans h.contentLength

private theorem IsRefusal.outgoing {response : Http.Response}
    (h : IsRefusal settings part request response) (id : Header.Value) :
    IsRefusal settings part request (outgoing id response) := by
  have hstatus : response.withLength.status = response.status := by
    rw [Http.Response.withLength]
    split <;> rfl
  have htype : response.withLength.headers.values Header.contentType =
      response.headers.values Header.contentType := by
    rw [Http.Response.withLength]
    split
    · rfl
    · exact Headers.values_insert_of_ne _ _ (by decide)
  refine ⟨?_, ?_⟩
  · rw [Gateway.outgoing]
    simp only [hstatus]
    exact h.status
  · exact (values_identified (by decide) id _).trans (htype.trans h.contentType)

private theorem IsTransparent.outgoing {calls : List Call} {response : Http.Response}
    (h : IsTransparent settings network part encoding request calls response) (id : Header.Value) :
    IsTransparent settings network part encoding request calls (outgoing id response) := by
  refine ⟨h.once, ?_, h.idle, fun hnone hreachable => (h.refused hnone hreachable).outgoing id⟩
  intro target call peer delay hasks hreached htime hfits
  obtain ⟨hcalls, hanswer⟩ := h.answered target call peer delay hasks hreached htime hfits
  exact ⟨hcalls, hanswer.outgoing id⟩

/-- A web request comes to the one call it asks for and to the answer of the backend, or to no call and a
refusal. If only the headers were asked for, the response leaves without its body. -/
theorem answer_isTransparent (settings : Settings) (network : Network σ) (fresh : Fresh)
    (state : State σ) (request : Http.Request) (part : List Char) (encoding : Encoding)
    (hroute : Route.ofPath? request.target.shownPath = some (.call part))
    (hweb : Protocol.ofHeaders request.headers = .web encoding) :
    ∃ response,
      IsTransparent settings network part encoding
        { request with headers := identified fresh.id request.headers }
        (answer settings network fresh state request).calls response ∧
      (answer settings network fresh state request).response =
        if request.method = "HEAD" then response.withoutBody else response := by
  let asked := { request with headers := identified fresh.id request.headers }
  let id := (asked.headers.get? Header.requestId).getD fresh.id
  let served := follow settings network fresh.directory state asked (.call part)
  have hasked : Protocol.ofHeaders asked.headers = .web encoding :=
    (ofHeaders_identified fresh.id request.headers).trans hweb
  have hserved := follow_isTransparent settings network fresh.directory state part hasked
  refine ⟨outgoing id served.response, ?_, ?_⟩
  · have hcalls : (answer settings network fresh state request).calls = served.calls := by
      simp only [answer, hroute]
      rfl
    rw [hcalls]
    exact hserved.outgoing id
  · simp only [answer, hroute, finish]
    by_cases hhead : request.method = "HEAD"
    · simp only [if_pos hhead]
      rfl
    · simp only [if_neg hhead]
      rfl

def echoPeer : Peer Unit := ⟨Sample.echo, Sample.Script.server ⟨[], [], false⟩⟩

/-- A network with the echo service at every address. -/
def echoNetwork : Network Unit :=
  ⟨fun _ => .reached echoPeer ⟨0⟩, fun _ => .refused, 0⟩

/-- A call of the echo service in the web protocol, with a frame in Base64. -/
def echoRequest : Http.Request :=
  { method := "POST"
    target := ⟨"/target/echo.Echo/Echo".toList, none⟩
    headers := (Headers.empty.insert Header.defaultTarget (.ofText "localhost:50051")).insert
      Header.contentType (.ofText "application/grpc-web-text")
    body := ⟨bytesOf "AAAAAAJoaQ==", none⟩ }

def echoAsked : Http.Request :=
  { echoRequest with headers := identified (.ofText "1") echoRequest.headers }

theorem targetOf_echoAsked : targetOf echoAsked.headers Header.defaultTarget =
    .ok ⟨"localhost:50051", .plain, "localhost", 50051, none⟩ := by
  have hvalue : echoAsked.headers.get? Header.defaultTarget = some (.ofText "localhost:50051") := by
    decide +kernel
  have htext : (Header.Value.ofText "localhost:50051").text? = some "localhost:50051" := by decide +kernel
  simp only [targetOf, hvalue, htext]
  rfl

private theorem asks_echoAsked : ∃ call, call.payload = bytesOf "hi" ∧
    call.path = ⟨"/echo.Echo/Echo".toList, none⟩ ∧
    Asks { workdir := [] } "echo.Echo/Echo".toList .text echoAsked
      ⟨"localhost:50051", .plain, "localhost", 50051, none⟩ call := by
  obtain ⟨metadata, hmetadata⟩ := addMetadata_metadataOf echoAsked.headers Header.defaultTarget
  have hread : (Web.requestPayload .text echoAsked.body.bytes).toOption = some (bytesOf "hi") := by
    decide +kernel
  have hpayload : Web.requestPayload .text echoAsked.body.bytes = .ok (bytesOf "hi") := by
    cases hresult : Web.requestPayload .text echoAsked.body.bytes with
    | ok payload =>
      rw [hresult] at hread
      cases hread
      rfl
    | error e =>
      rw [hresult] at hread
      cases hread
  have hmethod : unescaped? "echo.Echo/Echo".toList = some "echo.Echo/Echo".toList := by decide +kernel
  have hpath : Call.pathOf (String.ofList "echo.Echo/Echo".toList) =
      .ok ⟨"/echo.Echo/Echo".toList, none⟩ := by rfl
  exact ⟨⟨_, _, _⟩, rfl, rfl, targetOf_echoAsked, rfl, by decide, hpayload, ⟨_, hmethod, hpath⟩,
    metadata, hmetadata, rfl⟩

theorem answer_isTransparent_echo :
    Route.ofPath? echoRequest.target.shownPath = some (.call "echo.Echo/Echo".toList) ∧
      Protocol.ofHeaders echoRequest.headers = .web .text ∧
      ∃ call, call.payload = bytesOf "hi" ∧
        (answer { workdir := [] } echoNetwork ⟨.ofText "1", ""⟩ ⟨.empty, .start ()⟩ echoRequest).calls =
          [call] ∧
        IsAnswer .text (.ok (bytesOf "hi"))
          (answer { workdir := [] } echoNetwork ⟨.ofText "1", ""⟩ ⟨.empty, .start ()⟩
            echoRequest).response := by
  have hroute : Route.ofPath? echoRequest.target.shownPath = some (.call "echo.Echo/Echo".toList) := by
    decide +kernel
  have hweb : Protocol.ofHeaders echoRequest.headers = .web .text := by decide +kernel
  obtain ⟨response, htransparent, hresponse⟩ := answer_isTransparent { workdir := [] } echoNetwork
    ⟨.ofText "1", ""⟩ ⟨.empty, .start ()⟩ echoRequest "echo.Echo/Echo".toList .text hroute hweb
  obtain ⟨call, hpayload, hpath, hasks⟩ := asks_echoAsked
  have hreply : echoPeer.backend call = ⟨.ok (bytesOf "hi"), ⟨0⟩⟩ := by
    simp only [echoPeer, Sample.echo, hpath, hpayload]
    rfl
  obtain ⟨hcalls, hanswer⟩ := htransparent.answered _ call echoPeer ⟨0⟩ hasks rfl
    (by rw [hreply]; decide) (by rw [hreply]; decide)
  simp only [hreply] at hanswer
  rw [if_neg (by decide)] at hresponse
  exact ⟨hroute, hweb, call, hpayload, hcalls, hresponse ▸ hanswer⟩

end Gateway

end RpcGateway
