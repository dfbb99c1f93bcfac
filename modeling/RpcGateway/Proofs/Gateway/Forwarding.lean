import Mathlib.Data.List.Basic
import RpcGateway.Gateway.WebCall
import RpcGateway.Proofs.Gateway.Transparency
/-!
# What metadata carries

A name may have several values among the headers of a request, and among the pairs of a command line. The
metadata of a call is built pair by pair, and a later pair takes the place of the earlier ones of its name.
So a call carries the last value of each name, and nothing is lost exactly if no name has two.
-/
namespace RpcGateway

open Header (Name Value)

namespace Call

/-- The value that a pair gives to a name. -/
def valueGiven? (name : Name) (pair : String × String) : Option Value :=
  (readKey pair.1).toOption.bind fun other =>
    if other = name then (readValue pair.1 pair.2).toOption else none

/-- All values that pairs give to a name, in order. -/
def valuesGiven (name : Name) (pairs : List (String × String)) : List Value :=
  pairs.filterMap (valueGiven? name)

private theorem values_addMetadata {pairs : List (String × String)} {metadata added : Headers}
    (h : addMetadata metadata pairs = .ok added) (name : Name) :
    added.values name =
      ((valuesGiven name pairs).getLast?.map fun value => [value]).getD (metadata.values name) := by
  induction pairs generalizing metadata with
  | nil =>
    cases h
    rfl
  | cons pair rest ih =>
    rw [addMetadata] at h
    cases hkey : readKey pair.1 with
    | error e =>
      rw [hkey] at h
      cases h
    | ok other =>
      cases hvalue : readValue pair.1 pair.2 with
      | error e =>
        rw [hkey, hvalue] at h
        cases h
      | ok value =>
        rw [hkey, hvalue] at h
        have hrest := ih h
        by_cases hsame : other = name
        · subst hsame
          have hgiven : valuesGiven other (pair :: rest) = value :: valuesGiven other rest := by
            simp [valuesGiven, valueGiven?, hkey, hvalue, Except.toOption]
          rw [hrest, hgiven, Headers.values_insert_self]
          cases hlast : (valuesGiven other rest).getLast? with
          | none => simp [List.getLast?_eq_none_iff.mp hlast]
          | some last => simp [List.getLast?_cons, hlast]
        · have hgiven : valuesGiven name (pair :: rest) = valuesGiven name rest := by
            simp [valuesGiven, valueGiven?, hkey, hsame, Except.toOption]
          rw [hrest, hgiven, Headers.values_insert_of_ne _ _ (Ne.symm hsame)]

private theorem values_prepare {method : String} {payload : Bytes} {pairs : List (String × String)}
    {call : Call} (h : prepare method payload pairs = .ok call) (name : Name) :
    call.metadata.values name =
      if reservedNames.contains name.text then [] else (valuesGiven name pairs).getLast?.toList := by
  obtain ⟨-, -, metadata, hadded, hsent⟩ := prepare_ok_iff.mp h
  rw [hsent, sentMetadata, Headers.values_filter, values_addMetadata hadded]
  cases hreserved : reservedNames.contains name.text with
  | true => rfl
  | false => cases (valuesGiven name pairs).getLast? <;> rfl

private theorem prepare_of_mem_sent {find : Endpoint → Link Backend} {target : Target} {method : String}
    {payload : Bytes} {pairs : List (String × String)} {limit : Duration} {call : Call}
    (h : call ∈ (dial find target method payload pairs limit).sent) :
    prepare method payload pairs = .ok call := by
  rw [dial] at h
  cases hconnect : connect find target limit with
  | error e =>
    rw [hconnect] at h
    cases h
  | ok reached =>
    rw [hconnect] at h
    simp only [make] at h
    cases hprepare : prepare method payload pairs with
    | error e =>
      rw [hprepare] at h
      cases h
    | ok prepared =>
      rw [hprepare] at h
      have hsame : call = prepared := List.mem_singleton.mp h
      rw [hsame]

end Call

namespace Headers

private theorem filterMap_toList {β : Type} (headers : Headers) (name : Name) (g : Value → Option β) :
    (headers.toList.filterMap fun header => if header.1 = name then g header.2 else none) =
      (headers.values name).filterMap g := by
  obtain ⟨groups, hdistinct⟩ := headers
  simp only [toList, values]
  induction groups with
  | nil => rfl
  | cons group rest ih =>
    obtain ⟨first, values⟩ := group
    rw [List.map_cons, List.nodup_cons] at hdistinct
    have hfresh : first ∉ rest.map Prod.fst := hdistinct.1
    have hrest := ih hdistinct.2
    rw [List.flatMap_cons, List.filterMap_append, hrest, List.filterMap_map, List.lookup_cons]
    by_cases hsame : first = name
    · subst hsame
      have hnone : rest.lookup first = none := by
        rw [List.lookup_eq_none_iff]
        intro group hgroup
        apply bne_iff_ne.mpr
        intro heq
        apply hfresh
        rw [heq]
        exact List.mem_map_of_mem hgroup
      simp [hnone]
    · have hne : (name == first) = false := beq_eq_false_iff_ne.mpr (Ne.symm hsame)
      simp [hne, hsame]

end Headers

namespace Gateway

/-- The values of a header that can be shown as text, in order. -/
def textValues (headers : Headers) (name : Name) : List Value :=
  (headers.values name).filter fun value => value.text?.isSome

/-- A header that goes along with a call. -/
def IsAdmitted (targetName name : Name) : Prop :=
  name ≠ targetName ∧ isForwarded name = true

private theorem valuesGiven_metadataOf {headers : Headers} {targetName name : Name}
    (h : IsAdmitted targetName name) :
    Call.valuesGiven name (metadataOf headers targetName) = textValues headers name := by
  have hpair : ∀ header : Name × Value,
      ((if header.1 ≠ targetName ∧ isForwarded header.1 = true then
          header.2.text?.map fun text => (header.1.text, text) else none).bind
        (Call.valueGiven? name)) =
      if header.1 = name then (if header.2.text?.isSome then some header.2 else none) else none := by
    intro header
    obtain ⟨other, value⟩ := header
    cases htext : value.text? with
    | none => simp
    | some text =>
      by_cases hadmitted : other ≠ targetName ∧ isForwarded other = true
      · have hkey := Call.readKey_text (isBinaryName_of_isForwarded hadmitted.2)
        have hvalue := Call.readValue_text htext other.text
        rw [if_pos hadmitted]
        simp [Call.valueGiven?, hkey, hvalue, Except.toOption]
      · have hne : other ≠ name := fun heq => hadmitted (heq ▸ h)
        rw [if_neg hadmitted]
        simp [hne]
  calc Call.valuesGiven name (metadataOf headers targetName)
      = headers.toList.filterMap fun header =>
          if header.1 = name then (if header.2.text?.isSome then some header.2 else none)
          else none := by
        rw [Call.valuesGiven, metadataOf, List.filterMap_filterMap]
        exact List.filterMap_congr fun header _ => hpair header
    _ = (headers.values name).filterMap fun value =>
          if value.text?.isSome then some value else none :=
        headers.filterMap_toList name fun value => if value.text?.isSome then some value else none
    _ = textValues headers name := by
        rw [textValues, ← List.filterMap_eq_filter]
        apply List.filterMap_congr
        intro value _
        simp [Option.guard]

private theorem not_reserved_of_isForwarded {name : Name} (h : isForwarded name = true) :
    Call.reservedNames.contains name.text = false := by
  have hchecked : ∀ text ∈ Call.reservedNames,
      exchangeNames.contains text = true ∨ "grpc-".toList.isPrefixOf text.toList = true := by
    decide
  simp only [isForwarded, Bool.and_eq_true, Bool.not_eq_true'] at h
  apply Bool.eq_false_iff.mpr
  intro hreserved
  rcases hchecked name.text (List.contains_iff_mem.mp hreserved) with hexchange | hgrpc
  · rw [h.1.1.1] at hexchange
    cases hexchange
  · rw [h.1.2] at hgrpc
    cases hgrpc

/-- The metadata of a call carries all that is admitted of the headers. -/
def CarriesHeaders (headers : Headers) (targetName : Name) (metadata : Headers) : Prop :=
  ∀ name, IsAdmitted targetName name → metadata.values name = textValues headers name

end Gateway

/-- The metadata of a call carries every pair. -/
def Call.CarriesPairs (pairs : List (String × String)) (metadata : Headers) : Prop :=
  ∀ name, metadata.values name = Call.valuesGiven name pairs

private theorem getLast?_toList_eq_self_iff {α : Type} (xs : List α) :
    xs.getLast?.toList = xs ↔ xs.length ≤ 1 := by
  rcases xs with _ | ⟨x, _ | ⟨y, rest⟩⟩
  · simp
  · simp
  · constructor
    · intro h
      have hlength := congrArg List.length h
      cases hlast : (x :: y :: rest).getLast? <;> simp [hlast] at hlength
    · simp

private theorem Call.carriesPairs_iff {find : Endpoint → Link Backend} {target : Target} {method : String}
    {payload : Bytes} {pairs : List (String × String)} {limit : Duration} {call : Call}
    (h : call ∈ (dial find target method payload pairs limit).sent) :
    CarriesPairs pairs call.metadata ↔ ∀ name, (valuesGiven name pairs).length ≤
      if reservedNames.contains name.text then 0 else 1 := by
  have hvalues := values_prepare (prepare_of_mem_sent h)
  apply forall_congr'
  intro name
  rw [hvalues]
  cases hreserved : reservedNames.contains name.text with
  | true =>
    rw [if_pos rfl, if_pos rfl, Nat.le_zero, List.length_eq_zero_iff]
    exact eq_comm
  | false =>
    rw [if_neg Bool.false_ne_true, if_neg Bool.false_ne_true]
    exact getLast?_toList_eq_self_iff _

namespace Gateway

private theorem values_webCall {settings : Settings} {find : Endpoint → Link Backend} {target : Target}
    {method : String} {encoding : Web.Encoding} {request : Http.Request} {call : Call}
    (h : call ∈ (webCall settings find target method encoding request).calls) {name : Name}
    (hname : IsAdmitted settings.targetName name) :
    call.metadata.values name = (textValues request.headers name).getLast?.toList := by
  rw [webCall] at h
  cases hpayload : readPayload settings encoding request with
  | error e =>
    rw [hpayload] at h
    cases h
  | ok payload =>
    rw [hpayload] at h
    rw [Call.values_prepare (Call.prepare_of_mem_sent h), not_reserved_of_isForwarded hname.2,
      valuesGiven_metadataOf hname]
    rfl

/-- A call carries, of each header that is admitted, the last value that is text, so that nothing is lost
exactly if there is no other. Of the pairs of a command line it carries the last of each name that is not
reserved, so that nothing is lost exactly if no name is given twice, and none that is reserved. -/
theorem metadata_carries_iff (find : Endpoint → Link Backend) (target : Target) (method : String) :
    (∀ settings encoding request,
      ∀ call ∈ (webCall settings find target method encoding request).calls,
        (∀ name, IsAdmitted settings.targetName name → call.metadata.values name =
          (textValues request.headers name).getLast?.toList) ∧
        (CarriesHeaders request.headers settings.targetName call.metadata ↔
          ∀ name, IsAdmitted settings.targetName name →
            (textValues request.headers name).length ≤ 1)) ∧
    ∀ payload pairs limit, ∀ call ∈ (Call.dial find target method payload pairs limit).sent,
      (∀ name, call.metadata.values name = if Call.reservedNames.contains name.text then []
        else (Call.valuesGiven name pairs).getLast?.toList) ∧
      (Call.CarriesPairs pairs call.metadata ↔ ∀ name, (Call.valuesGiven name pairs).length ≤
        if Call.reservedNames.contains name.text then 0 else 1) := by
  constructor
  · intro settings encoding request call hcall
    refine ⟨fun name hname => values_webCall hcall hname, ?_⟩
    apply forall_congr'
    intro name
    apply forall_congr'
    intro hname
    rw [values_webCall hcall hname]
    exact getLast?_toList_eq_self_iff _
  · intro payload pairs limit call hcall
    exact ⟨Call.values_prepare (Call.prepare_of_mem_sent hcall), Call.carriesPairs_iff hcall⟩

/-- The echo service at every address. -/
def echoLink : Endpoint → Link Backend := fun _ => .reached Sample.echo ⟨0⟩

def echoTarget : Target := ⟨"localhost:50051", .plain, "localhost", 50051, none⟩

def repeatedName : Name := ⟨"x-a", by decide⟩

def repeatedPairs : List (String × String) := [("x-a", "1"), ("x-a", "2")]

/-- A web request for the echo service with two values of one header. -/
def repeatedRequest : Http.Request :=
  { method := "POST"
    target := ⟨"/target/echo.Echo/Echo".toList, none⟩
    headers := (Headers.empty.append repeatedName (.ofText "1")).append repeatedName (.ofText "2")
    body := ⟨[0, 0, 0, 0, 0], none⟩ }

private theorem isAdmitted_repeatedName : IsAdmitted Header.defaultTarget repeatedName := by
  exact ⟨by decide, by decide⟩

private theorem textValues_repeatedRequest :
    textValues repeatedRequest.headers repeatedName = [.ofText "1", .ofText "2"] := by
  decide +kernel

private theorem valuesGiven_repeatedPairs :
    Call.valuesGiven repeatedName repeatedPairs = [.ofText "1", .ofText "2"] := by
  decide +kernel

private theorem exists_repeated_calls :
    (∃ call, call ∈ (webCall { workdir := [] } echoLink echoTarget "echo.Echo/Echo" .binary
        repeatedRequest).calls) ∧
      ∃ call, call ∈ (Call.dial echoLink echoTarget "echo.Echo/Echo" [] repeatedPairs ⟨1⟩).sent := by
  have hweb : (webCall { workdir := [] } echoLink echoTarget "echo.Echo/Echo" .binary
      repeatedRequest).calls.length = 1 := by
    decide +kernel
  have hdial : (Call.dial echoLink echoTarget "echo.Echo/Echo" [] repeatedPairs ⟨1⟩).sent.length =
      1 := by
    decide +kernel
  exact ⟨List.exists_mem_of_length_pos (by omega), List.exists_mem_of_length_pos (by omega)⟩

theorem metadata_carries_iff_repeated :
    (∃ call ∈ (webCall { workdir := [] } echoLink echoTarget "echo.Echo/Echo" .binary
        repeatedRequest).calls, call.metadata.values repeatedName = [.ofText "2"]) ∧
      ∃ call ∈ (Call.dial echoLink echoTarget "echo.Echo/Echo" [] repeatedPairs ⟨1⟩).sent,
        call.metadata.values repeatedName = [.ofText "2"] := by
  obtain ⟨⟨call, hcall⟩, call', hcall'⟩ := exists_repeated_calls
  have hall := metadata_carries_iff echoLink echoTarget "echo.Echo/Echo"
  have hweb := (hall.1 _ _ _ call hcall).1 repeatedName isAdmitted_repeatedName
  have hdial := (hall.2 _ _ _ call' hcall').1 repeatedName
  rw [textValues_repeatedRequest] at hweb
  rw [valuesGiven_repeatedPairs] at hdial
  exact ⟨⟨call, hcall, hweb⟩, call', hcall', hdial⟩

/-- A header with two values and a key that is given twice lose the first. -/
theorem not_carries_repeated :
    (∃ call ∈ (webCall { workdir := [] } echoLink echoTarget "echo.Echo/Echo" .binary
        repeatedRequest).calls,
      ¬CarriesHeaders repeatedRequest.headers Header.defaultTarget call.metadata) ∧
    ∃ call ∈ (Call.dial echoLink echoTarget "echo.Echo/Echo" [] repeatedPairs ⟨1⟩).sent,
      ¬Call.CarriesPairs repeatedPairs call.metadata := by
  obtain ⟨⟨call, hcall⟩, call', hcall'⟩ := exists_repeated_calls
  refine ⟨⟨call, hcall, fun hcarries => ?_⟩, call', hcall', fun hcarries => ?_⟩
  · have hall := hcarries repeatedName isAdmitted_repeatedName
    rw [values_webCall hcall isAdmitted_repeatedName, textValues_repeatedRequest] at hall
    have hlength : 1 = 2 := congrArg List.length hall
    omega
  · have hall := Call.carriesPairs_iff hcall' |>.mp hcarries repeatedName
    rw [valuesGiven_repeatedPairs] at hall
    have hopen : Call.reservedNames.contains repeatedName.text = false :=
      not_reserved_of_isForwarded isAdmitted_repeatedName.2
    rw [hopen] at hall
    have hlength : 2 ≤ 1 := hall
    omega

end Gateway

end RpcGateway
