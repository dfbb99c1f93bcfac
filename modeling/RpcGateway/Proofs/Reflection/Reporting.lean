import RpcGateway.Proofs.Reflection.Lockstep
import RpcGateway.Proofs.Reflection.Requests
import RpcGateway.Proofs.Reflection.Script
/-!
# Two ways to report a missing file

A scripted server says that it lacks a file in a response, or by ending the stream. A discovery asks the
same either way and comes to the same end; only the number of streams tells which way it was, for every
missing file of the standard library that is not the last query costs another stream.
-/
namespace RpcGateway.Sample.Script

open Reflection
open Schema (File)

/-- Whether a query is for a file of the standard library that the script lacks. -/
def skips (script : Script) : Query → Bool
  | .file name => Schema.isStandard name && (script.file? name).isNone
  | .symbol _ => false
  | .services => false

/-- How many streams had to be given up over the queries so far. -/
def givenUp (script : Script) (failStream : Bool) (asked : List Query) : Nat :=
  if failStream then asked.countP script.skips else 0

private theorem givenUp_concat (script : Script) (failStream : Bool) (asked : List Query) (query : Query) :
    script.givenUp failStream (asked ++ [query]) =
      script.givenUp failStream asked + if failStream && script.skips query then 1 else 0 := by
  cases failStream with
  | false => rfl
  | true => by_cases hskips : script.skips query = true <;> simp [givenUp, List.countP_append, hskips]

/-- Where a run stands that can ask more: what the server has read, and how many streams this took. -/
structure Standing (script : Script) (failStream : Bool) (asked : List Query) (t : Trace Unit)
    (s : Session) : Prop where
  read : t.read.map Prod.snd = asked
  waiting : t.waiting = []
  elapsed : t.elapsed = ⟨0⟩
  canAsk : s.CanAsk
  streams : t.streams = 1 + script.givenUp failStream asked.dropLast
  opens : script.givenUp failStream asked.dropLast + s.opens = script.givenUp failStream asked

/-- Where a run stands that has stopped. -/
structure Stopped (script : Script) (failStream : Bool) (asked : List Query) (t : Trace Unit) :
    Prop where
  read : t.read.map Prod.snd = asked
  streams : t.streams = 1 + script.givenUp failStream asked.dropLast

variable {script : Script} {failStream : Bool} {asked : List Query} {t : Trace Unit} {s : Session}
  {limit : Option Duration}

theorem Standing.stopped (h : script.Standing failStream asked t s) :
    script.Stopped failStream asked t :=
  ⟨h.read, h.streams⟩

/-- One more query is read, over the stream at hand or a new one. -/
theorem Standing.reads (h : script.Standing failStream asked t s) {number : Nat} {query : Query}
    {t' : Trace Unit} (hreads : Reads t s number query t') :
    script.Stopped failStream (asked ++ [query]) t' := by
  constructor
  · rw [hreads.read, h.waiting, List.append_nil, List.map_append, h.read, List.map_singleton]
  · rw [List.dropLast_concat, hreads.streams, h.streams, Nat.add_assoc, h.opens]

private theorem Standing.next (h : script.Standing failStream asked t s) {number : Nat} {query : Query}
    {t' : Trace Unit} {s' : Session} (hreads : Reads t s number query t') (hs' : s'.CanAsk)
    (hopens : s'.opens = if failStream && script.skips query then 1 else 0) :
    script.Standing failStream (asked ++ [query]) t' s' := by
  obtain ⟨hread, hstreams⟩ := h.reads hreads
  refine ⟨hread, hreads.waiting, hreads.elapsed.trans h.elapsed, hs', hstreams, ?_⟩
  rw [List.dropLast_concat, givenUp_concat, hopens]

/-- How a script says that it lacks what was asked for. -/
def lack (failStream : Bool) (message : String) : Error :=
  if failStream then .streamFailed ⟨.notFound, message⟩
  else .server StatusCode.notFound.number message

end RpcGateway.Sample.Script
