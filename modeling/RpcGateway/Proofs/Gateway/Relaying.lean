import Mathlib.Data.List.Flatten
import RpcGateway.Proofs.Gateway.Transparency
import RpcGateway.Proofs.Target
import RpcGateway.Proofs.Text.Percent
/-!
# Where a call is relayed to

A call that is not in the web protocol goes to one address, which is made of its target and of the text
that its path spells. The text is put there without escapes and is read once more as part of a URI. So
address and call agree exactly if nothing in the text depends on how often it is read.
-/
namespace RpcGateway.Gateway

open Outcome (mapError_eq_ok_iff)
open Percent (HasEscape)
open Uri (PathAndQuery isPathChar)

/-! ### The address -/

/-- The path and query under which a target has a method. -/
def relayTarget (target : Target) (method : List Char) (query : Option (List Char)) : PathAndQuery :=
  ⟨(target.path.getD defaultPath).toList ++ '/' :: method, query⟩

private theorem relayAddress_eq (target : Target) (method : List Char) (query : Option (List Char)) :
    relayAddress target method query = target.webScheme ++ "://".toList ++
      (target.authority.toList ++ (relayTarget target (method.dropWhile (· == '/')) query).written) := by
  cases query <;>
    simp only [relayAddress, relayTarget, PathAndQuery.written, PathAndQuery.shownQuery,
      String.toList_append, Target.toList_origin, List.append_assoc, List.cons_append]

private theorem head?_written_relayTarget {target : Target} (h : target.IsWellFormed) (method : List Char)
    (query : Option (List Char)) :
    ∀ c ∈ (relayTarget target method query).written.head?, Uri.isTerminator c = true := by
  have hslash : ((target.path.getD defaultPath).toList).head? = some '/' := by
    cases hpath : target.path with
    | none => rfl
    | some path => exact (h.path path hpath).2
  intro c hc
  simp only [PathAndQuery.written, relayTarget, List.append_assoc, List.head?_append, hslash,
    Option.some_or, Option.mem_some_iff] at hc
  rw [← hc]
  rfl

theorem relayUri_ok_iff {target : Target} (h : target.IsWellFormed) {method : List Char}
    {query : Option (List Char)} {uri : Uri} :
    relayUri target method query = .ok uri ↔
      Uri.isTooLong (relayAddress target method query) = false ∧
        (∃ a, Uri.Authority.ofText target.authority.toList = .ok a) ∧
        ∃ read, PathAndQuery.ofText
            (relayTarget target (method.dropWhile (· == '/')) query).written = .ok read ∧
          uri = ⟨some target.webScheme, some ⟨target.authority.toList⟩, read⟩ := by
  rw [relayUri, mapError_eq_ok_iff, relayAddress_eq]
  exact Uri.ofText_web_ok_iff target.isWebScheme_webScheme h.authority (head?_written_relayTarget h _ _)

/-! ### What is sent -/

/-- A request for a call of a method of a target that is not in the web protocol. `part` is the part of
its path that names the method. -/
structure Relays (settings : Settings) (part : List Char) (target : Target) (request : Http.Request) :
    Prop where
  read : ∃ text, PathAndQuery.ofText text = .ok request.target
  route : Route.ofPath? request.target.shownPath = some (.call part)
  target : targetOf request.headers settings.targetName = .ok target
  protocol : Protocol.ofHeaders request.headers = .twirp

/-- A request as it is taken up, with an identity. -/
def taken (fresh : Fresh) (request : Http.Request) : Http.Request :=
  { request with headers := identified fresh.id request.headers }

/-- A response as it goes back to a request that was taken up, with the same identity. -/
def givenBack (fresh : Fresh) (asked : Http.Request) (response : Http.Response) : Http.Response :=
  { finish asked response with
    headers := identified ((asked.headers.get? Header.requestId).getD fresh.id)
      (finish asked response).headers }

/-- The gateway hands a request to whatever is found at an address, and hands back what comes of it. -/
def PassesOn (settings : Settings) (request : Http.Request) (uri : Uri) : Prop :=
  ∀ (σ : Type) (network : Network σ) (fresh : Fresh) (state : State σ),
    (answer settings network fresh state request).response =
      givenBack fresh (taken fresh request) (responseOf
        (sendOn (network.site uri) settings.timeout
          (relayed settings.targetName uri (taken fresh request))))

private theorem status_givenBack (fresh : Fresh) (asked : Http.Request) (response : Http.Response) :
    (givenBack fresh asked response).status = response.status := by
  rw [givenBack, finish]
  split <;> simp only [Http.Response.withLength] <;> split <;> rfl

variable {settings : Settings} {part : List Char} {target : Target} {request : Http.Request}

private theorem targetOf_taken (fresh : Fresh)
    (h : targetOf request.headers settings.targetName = .ok target) :
    targetOf (taken fresh request).headers settings.targetName = .ok target := by
  have hsame : (taken fresh request).headers.get? settings.targetName =
      request.headers.get? settings.targetName := by
    rw [taken, identified]
    split
    next => rfl
    next hnew =>
      have hother : settings.targetName ≠ Header.requestId := by
        intro hname
        rw [hname, targetOf] at h
        cases hvalue : request.headers.get? Header.requestId with
        | none =>
          rw [hvalue] at h
          cases h
        | some value =>
          rw [hvalue] at hnew
          exact hnew rfl
      rw [Headers.get?, Headers.values_insert_of_ne _ _ hother, ← Headers.get?]
  rw [targetOf, hsame]
  exact h

private theorem response_of_relays {σ : Type} (h : Relays settings part target request)
    (network : Network σ) (fresh : Fresh) (state : State σ) :
    (answer settings network fresh state request).response =
      givenBack fresh (taken fresh request) (match unescaped? part with
        | none => unreadablePath
        | some method => responseOf
            (relayCall settings network.site target method (taken fresh request))) := by
  have htarget := targetOf_taken fresh h.target
  have hprotocol : Protocol.ofHeaders (taken fresh request).headers = .twirp :=
    (ofHeaders_identified fresh.id request.headers).trans h.protocol
  simp only [answer, h.route, follow]
  cases hmethod : unescaped? part with
  | none => rfl
  | some method =>
    show givenBack fresh (taken fresh request) (responseOf
      (answerCall settings network method (taken fresh request)).result) = _
    simp only [answerCall, htarget, hprotocol]

/-- A network in which one address refuses connections and all others are too slow. -/
def refusingNetwork (limit : Duration) (uri : Uri) : Network Unit where
  peer _ := .refused
  site other :=
    if other = uri then .refused
    else .reached (fun _ => (.bare 200, ⟨0⟩)) ⟨limit.nanoseconds + 1⟩
  patience := 0

private theorem status_sendOn_refusingNetwork {limit : Duration} {uri other : Uri} {asked : Http.Request} :
    (responseOf (sendOn ((refusingNetwork limit uri).site other) limit asked)).status =
      if other = uri then 502 else 504 := by
  by_cases hsame : other = uri
  · simp only [refusingNetwork, if_pos hsame]
    rfl
  · have hslow : limit.nanoseconds < limit.nanoseconds + 1 := Nat.lt_succ_self _
    simp only [refusingNetwork, if_neg hsame, sendOn, if_pos hslow]
    rfl

private theorem relayCall_of_ok {find : Uri → Link Site} {method : List Char} {asked : Http.Request}
    {uri : Uri} (h : relayUri target method asked.target.query = .ok uri) :
    relayCall settings find target method asked =
      sendOn (find uri) settings.timeout (relayed settings.targetName uri asked) := by
  show relayUri target method asked.target.query >>= _ = _
  rw [h]
  rfl

private theorem status_relayCall_of_error {find : Uri → Link Site} {method : List Char}
    {asked : Http.Request} {e : Failure}
    (h : relayUri target method asked.target.query = .error e) :
    (responseOf (relayCall settings find target method asked)).status = 500 := by
  show (responseOf (relayUri target method asked.target.query >>= _)).status = 500
  rw [h]
  rw [relayUri] at h
  cases haddress : Uri.ofText (relayAddress target method asked.target.query) with
  | ok uri =>
    rw [haddress] at h
    cases h
  | error reason =>
    rw [haddress] at h
    cases h
    rfl

/-- A request goes where the text without escapes leads, and nowhere else. -/
theorem passesOn_iff (h : Relays settings part target request) {uri : Uri} :
    PassesOn settings request uri ↔
      ∃ method, unescaped? part = some method ∧
        relayUri target method request.target.query = .ok uri := by
  constructor
  · -- The statuses 400, 500, 502 and 504 tell apart how far the request comes in this network.
    intro hpasses
    let fresh : Fresh := ⟨.ofText "", ""⟩
    have hstatus := congrArg Http.Response.status
      (hpasses Unit (refusingNetwork settings.timeout uri) fresh ⟨.empty, .start ()⟩)
    rw [response_of_relays h, status_givenBack, status_givenBack, status_sendOn_refusingNetwork,
      if_pos rfl] at hstatus
    cases hmethod : unescaped? part with
    | none =>
      rw [hmethod] at hstatus
      cases hstatus
    | some method =>
      simp only [hmethod] at hstatus
      cases hrelay : relayUri target method (taken fresh request).target.query with
      | error e =>
        rw [status_relayCall_of_error hrelay] at hstatus
        cases hstatus
      | ok other =>
        rw [relayCall_of_ok hrelay, status_sendOn_refusingNetwork] at hstatus
        by_cases hsame : other = uri
        · rw [← hsame]
          exact ⟨method, rfl, hrelay⟩
        · rw [if_neg hsame] at hstatus
          cases hstatus
  · intro ⟨method, hmethod, hrelay⟩ σ network fresh state
    rw [response_of_relays h, hmethod]
    exact congrArg (fun result => givenBack _ _ (responseOf result)) (relayCall_of_ok hrelay)

/-! ### What was received -/

private theorem unescaped?_eq_self (h : ¬HasEscape (Utf8.encode part)) : unescaped? part = some part := by
  rw [unescaped?, Percent.decode_eq_self h, Utf8.decode?_encode]

theorem Relays.exists_address (h : Relays settings part target request) :
    ∃ address, Target.ofAddress address = .ok target := by
  have htarget := h.target
  rw [targetOf] at htarget
  split at htarget
  · cases htarget
  · split at htarget
    · cases htarget
    · exact ⟨_, mapError_eq_ok_iff.mp htarget⟩

private theorem Relays.isWellFormed (h : Relays settings part target request) : target.IsWellFormed := by
  obtain ⟨address, haddress⟩ := h.exists_address
  exact Target.isWellFormed_of_ofAddress haddress

private theorem shownPath_of_route {path part : List Char} (h : Route.ofPath? path = some (.call part)) :
    path = "/target/".toList ++ part := by
  rw [Route.ofPath?] at h
  split at h
  next c rest hafter =>
    cases h
    exact Cut.after?_eq_some_iff.mp hafter
  next =>
    split at h
    · cases h
    · split at h <;> cases h

private theorem Relays.isWellFormed_relayTarget (h : Relays settings part target request) :
    (relayTarget target part request.target.query).IsWellFormed := by
  obtain ⟨text, htext⟩ := h.read
  have hreceived := PathAndQuery.isWellFormed_of_ofText htext
  have hpath := shownPath_of_route h.route
  have hpart : ∀ c ∈ part, isPathChar c = true := by
    intro c hc
    have hmem : c ∈ request.target.shownPath := hpath ▸ List.mem_append_right _ hc
    rw [PathAndQuery.shownPath] at hmem
    split at hmem
    · rw [List.mem_singleton.mp hmem]
      rfl
    · exact hreceived.path c hmem
  have hlead : ∀ c ∈ (target.path.getD defaultPath).toList, isPathChar c = true := by
    cases hpath : target.path with
    | none =>
      have hall : defaultPath.toList.all isPathChar = true := by decide
      exact List.all_eq_true.mp hall
    | some path => exact (h.isWellFormed.path path hpath).1
  refine ⟨?_, hreceived.query⟩
  rw [relayTarget, List.forall_mem_append, List.forall_mem_cons]
  exact ⟨hlead, rfl, hpart⟩

private theorem passesOn_received {uri : Uri} (h : Relays settings part target request)
    (hpasses : PassesOn settings request uri)
    (huri : uri.target = relayTarget target part request.target.query) :
    ¬HasEscape (Utf8.encode part) ∧ part.head? ≠ some '/' ∧
      (∃ a, Uri.Authority.ofText target.authority.toList = .ok a) ∧
      Uri.isTooLong (relayAddress target part request.target.query) = false := by
  obtain ⟨method, hmethod, hrelay⟩ := (passesOn_iff h).mp hpasses
  obtain ⟨hshort, hauthority, read, hread, hwhole⟩ := (relayUri_ok_iff h.isWellFormed).mp hrelay
  have hkept : part <+: method.dropWhile (· == '/') := by
    have hpath := PathAndQuery.path_prefix_of_ofText hread
    have hsame : read = relayTarget target part request.target.query := by
      rw [← huri, hwhole]
    rw [hsame, relayTarget, relayTarget] at hpath
    simpa using hpath
  -- An escape makes the text shorter, so what was received would not fit into what is sent.
  have hplain : ¬HasEscape (Utf8.encode part) := by
    intro hescape
    have hdropped : part.Sublist method :=
      hkept.sublist.trans (List.dropWhile_suffix _).sublist
    have hbytes : (Utf8.encode part).length ≤ (Utf8.encode method).length :=
      (hdropped.flatMap String.utf8EncodeChar).length_le
    have hdecoded := Utf8.length_encode_le hmethod
    have hshorter := (Percent.hasEscape_iff _).mp hescape
    omega
  obtain rfl : part = method := Option.some.inj ((unescaped?_eq_self hplain).symm.trans hmethod)
  refine ⟨hplain, ?_, hauthority, hshort⟩
  intro hslash
  cases part with
  | nil => cases hslash
  | cons c rest =>
    cases hslash
    have hlength := hkept.length_le
    have hdropped : (rest.dropWhile (· == '/')).length ≤ rest.length :=
      (List.dropWhile_suffix _).length_le
    rw [List.dropWhile_cons_of_pos rfl, List.length_cons] at hlength
    omega

/-- The address has what was received exactly if the text stays the same when its escapes are read and
the slashes at its beginning are dropped, and can be part of an address at all. -/
private theorem passesOn_received_iff (h : Relays settings part target request) :
    (∃ uri, PassesOn settings request uri ∧
        uri.target = relayTarget target part request.target.query) ↔
      ¬HasEscape (Utf8.encode part) ∧ part.head? ≠ some '/' ∧
        (∃ a, Uri.Authority.ofText target.authority.toList = .ok a) ∧
        Uri.isTooLong (relayAddress target part request.target.query) = false := by
  constructor
  · intro ⟨uri, hpasses, huri⟩
    exact passesOn_received h hpasses huri
  · intro ⟨hplain, hslash, hauthority, hshort⟩
    have hsame : part.dropWhile (· == '/') = part := by
      cases part with
      | nil => rfl
      | cons c rest =>
        have hc : ¬(c == '/') = true := by
          intro heq
          exact hslash (congrArg some (eq_of_beq heq))
        exact List.dropWhile_cons_of_neg hc
    have hread := h.isWellFormed_relayTarget.ofText_written
    have hrelay : relayUri target part request.target.query = .ok ⟨some target.webScheme,
        some ⟨target.authority.toList⟩, relayTarget target part request.target.query⟩ := by
      apply (relayUri_ok_iff h.isWellFormed).mpr
      rw [hsame]
      exact ⟨hshort, hauthority, _, hread, rfl⟩
    exact ⟨_, (passesOn_iff h).mpr ⟨part, unescaped?_eq_self hplain, hrelay⟩, rfl⟩

/-- Where a request is passed on to, and when its path and query are there as they were received. -/
theorem relays_as_received_iff (h : Relays settings part target request) :
    (∀ uri, PassesOn settings request uri ↔ ∃ method, unescaped? part = some method ∧
      relayUri target method request.target.query = .ok uri) ∧
    ((∃ uri, PassesOn settings request uri ∧
        uri.target = relayTarget target part request.target.query) ↔
      ¬HasEscape (Utf8.encode part) ∧ part.head? ≠ some '/' ∧
        (∃ a, Uri.Authority.ofText target.authority.toList = .ok a) ∧
        Uri.isTooLong (relayAddress target part request.target.query) = false) := by
  constructor
  · intro uri
    exact passesOn_iff h
  · exact passesOn_received_iff h

def localTarget : Target := ⟨"localhost:50051", .plain, "localhost", 50051, none⟩

/-- A request for the local target that is not in the web protocol. -/
def localRequest (path : String) (query : Option (List Char)) : Http.Request :=
  { method := "POST"
    target := ⟨path.toList, query⟩
    headers := Headers.empty.insert Header.defaultTarget (.ofText "localhost:50051")
    body := ⟨[], none⟩ }

private theorem targetOf_localRequest (path : String) (query : Option (List Char)) :
    targetOf (localRequest path query).headers Header.defaultTarget = .ok localTarget := by
  have hvalue : (localRequest path query).headers.get? Header.defaultTarget =
      some (.ofText "localhost:50051") := by
    rw [localRequest, Headers.get?, Headers.values_insert_self]
    rfl
  have htext : (Header.Value.ofText "localhost:50051").text? = some "localhost:50051" := by
    decide +kernel
  simp only [targetOf, hvalue, htext]
  rfl

private theorem ofHeaders_localRequest (path : String) (query : Option (List Char)) :
    Protocol.ofHeaders (localRequest path query).headers = .twirp := by
  have hvalue : (localRequest path query).headers.get? Header.contentType = none := by
    rw [localRequest, Headers.get?, Headers.values_insert_of_ne _ _ (by decide)]
    rfl
  rw [Protocol.ofHeaders, hvalue]
  rfl

theorem relays_as_received_iff_echo :
    ∃ uri, PassesOn { workdir := [] } (localRequest "/target/echo.Echo/Echo" (some "a=1".toList)) uri ∧
      uri.target = ⟨"/twirp/echo.Echo/Echo".toList, some "a=1".toList⟩ := by
  have hrelays : Relays { workdir := [] } "echo.Echo/Echo".toList localTarget
      (localRequest "/target/echo.Echo/Echo" (some "a=1".toList)) :=
    ⟨⟨"/target/echo.Echo/Echo?a=1".toList, rfl⟩, by decide +kernel, targetOf_localRequest _ _,
      ofHeaders_localRequest _ _⟩
  apply (relays_as_received_iff hrelays).2.mpr
  exact ⟨by decide +kernel, by decide, ⟨⟨"localhost:50051".toList⟩, rfl⟩, by decide +kernel⟩

/-- A call whose name holds an escaped space does not reach its target under the name that was
received. -/
theorem not_passesOn_received_escapedSpace :
    Relays { workdir := [] } "shop.v1.Orders/Create%20Now".toList localTarget
        (localRequest "/target/shop.v1.Orders/Create%20Now" none) ∧
      ¬∃ uri, PassesOn { workdir := [] } (localRequest "/target/shop.v1.Orders/Create%20Now" none) uri ∧
        uri.target = ⟨"/twirp/shop.v1.Orders/Create%20Now".toList, none⟩ := by
  have hrelays : Relays { workdir := [] } "shop.v1.Orders/Create%20Now".toList localTarget
      (localRequest "/target/shop.v1.Orders/Create%20Now" none) :=
    ⟨⟨"/target/shop.v1.Orders/Create%20Now".toList, rfl⟩, by decide +kernel,
      targetOf_localRequest _ _, ofHeaders_localRequest _ _⟩
  refine ⟨hrelays, fun hreceived => ?_⟩
  have hescape : HasEscape (Utf8.encode "shop.v1.Orders/Create%20Now".toList) := by decide +kernel
  exact ((passesOn_received_iff hrelays).mp hreceived).1 hescape

end RpcGateway.Gateway
