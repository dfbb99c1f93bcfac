import Mathlib.Data.List.TakeWhile
import RpcGateway.Proofs.Gateway.Transparency
import RpcGateway.Proofs.Uri.Reading
/-!
# Called methods

The path of a call against the method that was asked for. A path ends where a fragment begins, and the
fragment is not even looked at. So a method is called by its own name or refused exactly if it has no
number sign; with one, the method that is named before it is called instead.
-/
namespace RpcGateway.Call

open Uri (isTooLong PathAndQuery)
open Uri.PathAndQuery (ofText_ok_iff)

/-- A text that a call can carry as its path: nothing but a path and a query, and not too long. -/
def IsCarriable (cs : List Char) : Prop :=
  isTooLong cs = false ∧ ∃ p : PathAndQuery, p.IsWellFormed ∧ p.written = cs

variable {method : String} {p : PathAndQuery}

private theorem head?_rooted (method : List Char) : (rooted method).head? = some '/' := by
  rw [rooted]
  by_cases hslash : method.head? = some '/'
  · rw [if_pos hslash, hslash]
  · rw [if_neg hslash, List.head?_cons]

private theorem mem_rooted_iff {c : Char} (hc : c ≠ '/') {method : List Char} :
    c ∈ rooted method ↔ c ∈ method := by
  rw [rooted]
  by_cases hslash : method.head? = some '/'
  · rw [if_pos hslash]
  · rw [if_neg hslash, List.mem_cons]
    simp [hc]

private theorem text_eq_written (h : p.written.head? = some '/') : p.text = p.written := by
  obtain ⟨path, query⟩ := p
  cases path with
  | nil =>
    cases query with
    | none => cases h
    | some query => cases h
  | cons c path => rfl

private theorem pathOf_ok_iff : pathOf method = .ok p ↔
    isTooLong (rooted method.toList) = false ∧ p.IsWellFormed ∧
      p.written = (rooted method.toList).takeWhile (· ≠ '#') := by
  rw [pathOf, ← ofText_ok_iff]
  cases hlong : isTooLong (rooted method.toList) with
  | true => simp
  | false => simp

private theorem text_of_pathOf (h : pathOf method = .ok p) :
    p.text = (rooted method.toList).takeWhile (· ≠ '#') := by
  obtain ⟨-, -, hwritten⟩ := pathOf_ok_iff.mp h
  rw [← hwritten]
  apply text_eq_written
  rw [hwritten]
  have hhead := head?_rooted method.toList
  generalize rooted method.toList = cs at hhead
  cases cs with
  | nil => cases hhead
  | cons c rest =>
    cases hhead
    rw [List.takeWhile_cons_of_pos (by decide), List.head?_cons]

private theorem text_eq_rooted_iff (h : pathOf method = .ok p) :
    p.text = rooted method.toList ↔ '#' ∉ method.toList := by
  rw [text_of_pathOf h, List.takeWhile_eq_self_iff, ← mem_rooted_iff (by decide : '#' ≠ '/')]
  constructor
  · intro hall hmem
    simpa using hall '#' hmem
  · intro hmem c hc
    have hne : c ≠ '#' := fun hmark => hmem (hmark ▸ hc)
    exact decide_eq_true hne

private theorem IsCarriable.exists_path (h : IsCarriable (rooted method.toList)) :
    ∃ p, pathOf method = .ok p ∧ p.text = rooted method.toList := by
  obtain ⟨hshort, p, hformed, hwritten⟩ := h
  have hread : PathAndQuery.ofText (rooted method.toList) = .ok p := hwritten ▸ hformed.ofText_written
  refine ⟨p, ?_, ?_⟩
  · rw [pathOf, if_neg (Bool.eq_false_iff.mp hshort), hread]
  · rw [← hwritten]
    exact text_eq_written (hwritten ▸ head?_rooted method.toList)

private theorem isCarriable_of_pathOf (h : pathOf method = .ok p) (hmark : '#' ∉ method.toList) :
    IsCarriable (rooted method.toList) := by
  obtain ⟨hshort, hformed, hwritten⟩ := pathOf_ok_iff.mp h
  refine ⟨hshort, p, hformed, ?_⟩
  rw [hwritten, ← text_of_pathOf h, (text_eq_rooted_iff h).mpr hmark]

private theorem pathOf_of_mem_sent {channel : Channel} {payload : Bytes} {headers : List (String × String)}
    {limit : Duration} {call : Call} (h : call ∈ (make channel method payload headers limit).sent) :
    pathOf method = .ok call.path := by
  rw [make] at h
  cases hprepare : prepare method payload headers with
  | error e =>
    rw [hprepare] at h
    cases h
  | ok prepared =>
    rw [hprepare] at h
    cases channel with
    | down reason => cases h
    | ready backend =>
      have hsame : call = prepared := List.mem_singleton.mp h
      rw [hsame]
      exact (prepare_ok_iff.mp hprepare).1

/-- A method is called by the name that it was asked for by, or it is refused and nothing is sent. -/
structure IsPassedThrough (method : String) : Prop where
  carried : ∀ p, pathOf method = .ok p → p.text = rooted method.toList
  called : ∀ channel payload headers limit,
    ∀ call ∈ (make channel method payload headers limit).sent, call.path.text = rooted method.toList
  refused : ¬IsCarriable (rooted method.toList) → ∃ e, pathOf method = .error e ∧
    ∀ channel payload headers limit,
      make channel method payload headers limit = ⟨[], .error (.invalidMethod method e)⟩

/-- A method that can be carried is called. In every run the path called is the method up to its first
number sign; so a method is called by its own name or refused exactly if it has none or is refused anyway. -/
theorem isPassedThrough_iff (method : String) :
    (IsCarriable (rooted method.toList) →
      ∃ p, pathOf method = .ok p ∧ p.text = rooted method.toList) ∧
    (∀ p, pathOf method = .ok p ↔ isTooLong (rooted method.toList) = false ∧
      p.IsWellFormed ∧ p.written = (rooted method.toList).takeWhile (· ≠ '#')) ∧
    (IsPassedThrough method ↔ ∀ p, pathOf method = .ok p → '#' ∉ method.toList) := by
  refine ⟨IsCarriable.exists_path, fun p => pathOf_ok_iff, ?_⟩
  constructor
  · intro hpassed p hpath
    exact (text_eq_rooted_iff hpath).mp (hpassed.carried p hpath)
  · intro hmark
    have hcarried : ∀ p, pathOf method = .ok p → p.text = rooted method.toList :=
      fun p hpath => (text_eq_rooted_iff hpath).mpr (hmark p hpath)
    refine ⟨hcarried, fun _ _ _ _ call hcall => hcarried _ (pathOf_of_mem_sent hcall), fun hnot => ?_⟩
    cases hpath : pathOf method with
    | ok p => exact absurd (isCarriable_of_pathOf hpath (hmark p hpath)) hnot
    | error e =>
      refine ⟨e, rfl, fun channel payload headers limit => ?_⟩
      rw [make, prepare, hpath]
      rfl

/-- The method before a number sign is called in the place of the one that was asked for. -/
theorem not_isPassedThrough_numberSign :
    pathOf "shop.v1.Orders/Get#All" = .ok ⟨"/shop.v1.Orders/Get".toList, none⟩ ∧
      ¬IsPassedThrough "shop.v1.Orders/Get#All" := by
  have hpath : pathOf "shop.v1.Orders/Get#All" = .ok ⟨"/shop.v1.Orders/Get".toList, none⟩ := by
    rfl
  refine ⟨hpath, fun hpassed => ?_⟩
  exact absurd ((isPassedThrough_iff _).2.2.mp hpassed _ hpath) (by decide)

end RpcGateway.Call
