import RpcGateway.Proofs.Reflection.Walk
/-!
# Exchanges of a discovery

The queries of a discovery in order, each with what came of it. They say all that a server contributes to
a run, whatever its state is and however it reports a failure.
-/
namespace RpcGateway.Reflection

open Schema (File)

/-- A query, and the files or the error that came of it. -/
structure Exchange where
  query : Query
  answer : Except Error (List File)
  deriving DecidableEq

/-- The files that came of a query. -/
def Exchange.files (e : Exchange) : List File :=
  match e.answer with
  | .ok files => files
  | .error _ => []

/-- The names of all files that were received. -/
def receivedNames (h : List Exchange) : List String :=
  (h.flatMap Exchange.files).map File.nameText

/-- The name of the file that was asked for. -/
def Exchange.fileName? (e : Exchange) : Option String :=
  match e.query with
  | .file name => some name
  | _ => none

/-- The names of the files that were asked for. -/
def askedNames (h : List Exchange) : List String :=
  h.filterMap Exchange.fileName?

variable {σ : Type}

def symbolExchanges (server : Server σ) (limit : Option Duration) :
    Trace σ → Session → Walk → List String → List Exchange
  | _, _, _, [] => []
  | t, s, w, symbol :: rest =>
    match requestFiles server limit t s (.symbol symbol) with
    | (_, _, .error e) => [⟨.symbol symbol, .error e⟩]
    | (t, s, .ok files) =>
      ⟨.symbol symbol, .ok files⟩ ::
        match w.takeIn files with
        | .error _ => []
        | .ok w => symbolExchanges server limit t s w rest

/-- The exchanges about imports, for at most `fuel` names of the queue. -/
def importExchanges (server : Server σ) (limit : Option Duration) :
    (fuel : Nat) → Trace σ → Session → Walk → List Exchange
  | 0, _, _, _ => []
  | fuel + 1, t, s, w =>
    match w.queue with
    | [] => []
    | name :: queue =>
      let w := { w with queue }
      if w.closure.contains name then importExchanges server limit fuel t s w
      else
        match requestFiles server limit t s (.file name) with
        | (t, s, .ok files) =>
          ⟨.file name, .ok files⟩ ::
            match w.takeIn files with
            | .error _ => []
            | .ok w => importExchanges server limit fuel t s w
        | (t, s, .error e) =>
          ⟨.file name, .error e⟩ ::
            if Schema.isStandard name && e.saysNotFound then
              importExchanges server limit fuel t s.reopen
                { w with closure := w.closure.noteMissing name }
            else []

/-- The exchanges of a run that resolves symbols. -/
def exchanges (server : Server σ) (limit : Option Duration) (fuel : Nat) (t : Trace σ) (s : Session)
    (symbols : List String) : List Exchange :=
  symbolExchanges server limit t s Walk.start symbols ++
    match askSymbols server limit t s Walk.start symbols with
    | (_, _, .error _) => []
    | (t, s, .ok w) => importExchanges server limit fuel t s w

@[simp] theorem askedNames_cons_file (name : String) (answer : Except Error (List File))
    (h : List Exchange) : askedNames (⟨.file name, answer⟩ :: h) = name :: askedNames h := rfl

@[simp] theorem askedNames_append (h h' : List Exchange) :
    askedNames (h ++ h') = askedNames h ++ askedNames h' := by
  simp [askedNames]

theorem mem_askedNames {h : List Exchange} {name : String} :
    name ∈ askedNames h ↔ ∃ answer, ⟨.file name, answer⟩ ∈ h := by
  simp only [askedNames, List.mem_filterMap]
  constructor
  · rintro ⟨⟨query, answer⟩, he, hname⟩
    cases query with
    | file other =>
      obtain rfl := Option.some.inj hname
      exact ⟨answer, he⟩
    | services => cases hname
    | symbol other => cases hname
  · rintro ⟨answer, he⟩
    exact ⟨_, he, rfl⟩

/-- With no name asked for twice, what came of a name is determined. -/
theorem answer_unique {h : List Exchange} (hnd : (askedNames h).Nodup) {name : String}
    {a b : Except Error (List File)} (ha : ⟨.file name, a⟩ ∈ h) (hb : ⟨.file name, b⟩ ∈ h) :
    a = b := by
  induction h with
  | nil => simp at ha
  | cons e rest ih =>
    have hrest : (askedNames rest).Nodup := by
      have happ : askedNames (e :: rest) = askedNames [e] ++ askedNames rest :=
        askedNames_append [e] rest
      rw [happ] at hnd
      exact (List.nodup_append.mp hnd).2.1
    have hfirst {c d : Except Error (List File)} (hc : (⟨.file name, c⟩ : Exchange) = e)
        (hd : ⟨.file name, d⟩ ∈ rest) : False := by
      have hmem : name ∈ askedNames rest := mem_askedNames.mpr ⟨d, hd⟩
      subst hc
      exact (List.nodup_cons.mp hnd).1 hmem
    rcases List.mem_cons.mp ha with ha | ha <;> rcases List.mem_cons.mp hb with hb | hb
    · cases ha.trans hb.symm
      rfl
    · exact (hfirst ha hb).elim
    · exact (hfirst hb ha).elim
    · exact ih hrest ha hb

end RpcGateway.Reflection
