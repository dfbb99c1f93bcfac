import RpcGateway.Proofs.Reflection.Run
import RpcGateway.Sample.Reflection
/-!
# Coverage of imports

When the imports of a discovery are all accounted for. A walk queues every import it does not know, and
takes each name from the queue once; but it does not look whether the file it asked for is among those it
receives, nor whether a file that arrives was noted missing before. So the closure of a successful
discovery is closed under imports exactly if the server answered consistently.
-/
namespace RpcGateway.Schema.Closure

/-- Every import is found or noted missing, and nothing is both. -/
def IsImportClosed (c : Closure) : Prop :=
  (∀ f ∈ c.files, ∀ name ∈ f.dependencies, name ∈ c.names ∨ name ∈ c.missing) ∧
    ∀ name ∈ c.names, name ∉ c.missing

end RpcGateway.Schema.Closure

namespace RpcGateway.Reflection

open Schema (File Closure)

/-- A walk after some files were received: it holds the first of each name, and has queued all the imports
of what it holds that it does not hold, and nothing else. -/
structure Walk.Tracks (files : List File) (w : Walk) : Prop where
  names : ∀ name, name ∈ w.closure.names ↔ name ∈ files.map File.nameText
  covered : ∀ f ∈ w.closure.files, ∀ name ∈ f.dependencies,
    name ∈ w.closure.names ∨ name ∈ w.queued
  imported : ∀ name ∈ w.queued, ∃ f ∈ w.closure.files, name ∈ f.dependencies
  distinct : w.queued.Nodup

/-- A walk that has grown: names were added to its queue, and files to its closure. -/
structure Walk.Extends (w w' : Walk) : Prop where
  queues : ∃ names, w'.queued = w.queued ++ names ∧ w'.queue = w.queue ++ names
  names : ∀ name ∈ w.closure.names, name ∈ w'.closure.names
  missing : w'.closure.missing = w.closure.missing

private theorem Walk.Extends.refl (w : Walk) : w.Extends w :=
  ⟨⟨[], by simp, by simp⟩, fun _ h => h, rfl⟩

private theorem Walk.Extends.trans {w w' w'' : Walk} (h : w.Extends w') (h' : w'.Extends w'') :
    w.Extends w'' := by
  obtain ⟨first, hqueued, hqueue⟩ := h.queues
  obtain ⟨second, hqueued', hqueue'⟩ := h'.queues
  refine ⟨⟨first ++ second, ?_, ?_⟩, fun name hn => h'.names name (h.names name hn), ?_⟩
  · rw [hqueued', hqueued, List.append_assoc]
  · rw [hqueue', hqueue, List.append_assoc]
  · rw [h'.missing, h.missing]

private theorem Walk.extends_grow {w : Walk} {f : File} (hnew : f.nameText ∉ w.closure.names) :
    w.Extends (w.grow f) := by
  refine ⟨⟨_, queued_grow w f, queue_grow w f⟩, ?_, missing_grow w f⟩
  intro name hn
  rw [names_grow hnew]
  exact List.mem_append_left _ hn

private theorem Walk.Tracks.grow {files : List File} {w : Walk} (h : w.Tracks files) {f : File}
    (hnew : f.nameText ∉ w.closure.names) : (w.grow f).Tracks (files ++ [f]) := by
  refine ⟨?_, ?_, ?_, nodup_queued_grow h.distinct f⟩
  · intro name
    rw [names_grow hnew, List.map_append, List.mem_append, List.mem_append, h.names]
    simp
  · intro g hg name hname
    rw [names_grow hnew, List.mem_append, mem_queued_grow]
    rw [files_grow hnew, List.mem_append, List.mem_singleton] at hg
    rcases hg with hg | rfl
    · have hknown := h.covered g hg name hname
      tauto
    · by_cases hknown : name ∈ w.closure.names ++ w.queued
      · have hin := List.mem_append.mp hknown
        tauto
      · exact Or.inr (Or.inr ⟨hname, hknown⟩)
  · intro name hname
    rw [mem_queued_grow] at hname
    rw [files_grow hnew]
    rcases hname with hname | hname
    · obtain ⟨g, hg, hdep⟩ := h.imported name hname
      exact ⟨g, List.mem_append_left _ hg, hdep⟩
    · exact ⟨f, by simp, hname.1⟩

private theorem Walk.Tracks.takeInFile {files : List File} {w w' : Walk} (h : w.Tracks files) {f : File}
    (hstep : w.takeInFile f = .ok w') : w'.Tracks (files ++ [f]) ∧ w.Extends w' := by
  rcases takeInFile_cases hstep with ⟨hin, rfl⟩ | ⟨hnew, rfl⟩
  · refine ⟨⟨?_, h.covered, h.imported, h.distinct⟩, Extends.refl _⟩
    intro name
    rw [List.map_append, List.mem_append, ← h.names]
    constructor
    · exact Or.inl
    · rintro (hn | hn)
      · exact hn
      · rw [List.map_singleton, List.mem_singleton] at hn
        exact hn ▸ hin
  · exact ⟨h.grow hnew, extends_grow hnew⟩

theorem Walk.Tracks.takeIn {files more : List File} {w w' : Walk} (h : w.Tracks files)
    (hstep : w.takeIn more = .ok w') : w'.Tracks (files ++ more) ∧ w.Extends w' := by
  induction more generalizing files w with
  | nil =>
    obtain rfl : w = w' := Except.ok.inj hstep
    exact ⟨by simpa using h, Extends.refl _⟩
  | cons f rest ih =>
    rw [Walk.takeIn, List.foldlM_cons] at hstep
    cases hfirst : w.takeInFile f with
    | error e =>
      rw [hfirst] at hstep
      cases hstep
    | ok middle =>
      rw [hfirst] at hstep
      obtain ⟨htracks, hext⟩ := h.takeInFile hfirst
      obtain ⟨htracks', hext'⟩ := ih htracks hstep
      rw [List.append_assoc] at htracks'
      exact ⟨htracks', hext.trans hext'⟩

/-- Where a walk stands after some exchanges: every name that was queued still waits, or is held, or was
asked for; no name was asked for twice; and the names noted missing are those that an error came of. -/
structure Walk.Follows (h : List Exchange) (w : Walk) : Prop where
  tracks : w.Tracks (h.flatMap Exchange.files)
  settled : ∀ name ∈ w.queued,
    name ∈ w.queue ∨ name ∈ w.closure.names ∨ name ∈ askedNames h
  past : ∃ past, w.queued = past ++ w.queue ∧ (askedNames h).Sublist past
  missing : ∀ name, name ∈ w.closure.missing ↔ ∃ e, ⟨.file name, .error e⟩ ∈ h

theorem Walk.Follows.start : Walk.start.Follows [] := by
  refine ⟨⟨?_, ?_, ?_, ?_⟩, ?_, ⟨[], rfl, by simp [askedNames]⟩, ?_⟩ <;>
    simp [Walk.start, Closure.empty, Closure.names]

private theorem Walk.Follows.nodup_asked {h : List Exchange} {w : Walk} (hw : w.Follows h) :
    (askedNames h).Nodup := by
  obtain ⟨past, hqueued, hsub⟩ := hw.past
  have hnd := hw.tracks.distinct
  rw [hqueued] at hnd
  exact (List.nodup_append.mp hnd).1.sublist hsub

private theorem Walk.Follows.next {h : List Exchange} {w : Walk} (hw : w.Follows h) {name : String}
    {queue : List String} (hqueue : w.queue = name :: queue) :
    (∃ past, w.queued = past ++ queue ∧ (askedNames h ++ [name]).Sublist past) ∧
      ∀ n ∈ w.queued, n = name ∨ n ∈ queue ∨ n ∈ w.closure.names ∨ n ∈ askedNames h := by
  constructor
  · obtain ⟨past, hpast, hsub⟩ := hw.past
    refine ⟨past ++ [name], ?_, hsub.append (List.Sublist.refl _)⟩
    simp [hpast, hqueue]
  · intro n hn
    have hsettled := hw.settled n hn
    rw [hqueue, List.mem_cons] at hsettled
    tauto

/-- The files that came of a query about a symbol are taken in. -/
theorem Walk.Follows.symbol {h : List Exchange} {w w' : Walk} (hw : w.Follows h) (name : String)
    {files : List File} (hstep : w.takeIn files = .ok w') :
    w'.Follows (h ++ [⟨.symbol name, .ok files⟩]) := by
  obtain ⟨htracks, hext⟩ := hw.tracks.takeIn hstep
  obtain ⟨added, hqueued, hqueue⟩ := hext.queues
  obtain ⟨past, hpast, hsub⟩ := hw.past
  have hasked : askedNames (h ++ [⟨.symbol name, .ok files⟩]) = askedNames h := by
    simp [askedNames, Exchange.fileName?]
  refine ⟨by simpa [Exchange.files] using htracks, ?_, ⟨past, ?_, hasked ▸ hsub⟩, ?_⟩
  · intro n hn
    rw [hqueued, List.mem_append] at hn
    rw [hqueue, hasked, List.mem_append]
    have hsettled := hw.settled n
    have hgrown := hext.names n
    tauto
  · rw [hqueued, hqueue, hpast, List.append_assoc]
  · intro n
    rw [hext.missing, hw.missing]
    simp

theorem Walk.Follows.skip {h : List Exchange} {w : Walk} (hw : w.Follows h) {name : String}
    {queue : List String} (hqueue : w.queue = name :: queue) (hin : name ∈ w.closure.names) :
    Walk.Follows h { w with queue } := by
  obtain ⟨⟨past, hpast, hsub⟩, hsettled⟩ := hw.next hqueue
  have htracks := hw.tracks
  refine ⟨⟨htracks.names, htracks.covered, htracks.imported, htracks.distinct⟩, ?_,
    ⟨past, hpast, (List.sublist_append_left _ _).trans hsub⟩, hw.missing⟩
  intro n hn
  rcases hsettled n hn with rfl | hn
  · exact Or.inr (Or.inl hin)
  · exact hn

theorem Walk.Follows.found {h : List Exchange} {w w' : Walk} (hw : w.Follows h) {name : String}
    {queue : List String} (hqueue : w.queue = name :: queue) {files : List File}
    (hstep : Walk.takeIn { w with queue } files = .ok w') :
    w'.Follows (h ++ [⟨.file name, .ok files⟩]) := by
  obtain ⟨⟨past, hpast, hsub⟩, hsettled⟩ := hw.next hqueue
  have htaken : Walk.Tracks (h.flatMap Exchange.files) { w with queue } :=
    ⟨hw.tracks.names, hw.tracks.covered, hw.tracks.imported, hw.tracks.distinct⟩
  obtain ⟨htracks, hext⟩ := htaken.takeIn hstep
  obtain ⟨added, hqueued, hqueue'⟩ := hext.queues
  have hasked : askedNames (h ++ [⟨.file name, .ok files⟩]) = askedNames h ++ [name] := by
    simp [askedNames, Exchange.fileName?]
  refine ⟨by simpa [Exchange.files] using htracks, ?_, ⟨past, ?_, hasked ▸ hsub⟩, ?_⟩
  · intro n hn
    rw [hqueued, List.mem_append] at hn
    rw [hqueue', hasked, List.mem_append, List.mem_append, List.mem_singleton]
    have hstands := hsettled n
    have hgrown := hext.names n
    tauto
  · rw [hqueued, hqueue', hpast, List.append_assoc]
  · intro n
    rw [hext.missing, hw.missing]
    simp

theorem Walk.Follows.lacking {h : List Exchange} {w : Walk} (hw : w.Follows h) {name : String}
    {queue : List String} (hqueue : w.queue = name :: queue) (e : Error) :
    Walk.Follows (h ++ [⟨.file name, .error e⟩])
      { w with queue, closure := w.closure.noteMissing name } := by
  obtain ⟨⟨past, hpast, hsub⟩, hsettled⟩ := hw.next hqueue
  have hasked : askedNames (h ++ [⟨.file name, .error e⟩]) = askedNames h ++ [name] := by
    simp [askedNames, Exchange.fileName?]
  have htracks := hw.tracks
  refine ⟨⟨?_, htracks.covered, htracks.imported, htracks.distinct⟩, ?_,
    ⟨past, hpast, hasked ▸ hsub⟩, ?_⟩
  · simpa [Exchange.files] using htracks.names
  · intro n hn
    rw [hasked, List.mem_append, List.mem_singleton]
    have hstands := hsettled n hn
    tauto
  · intro n
    rw [Closure.mem_missing_noteMissing, hw.missing]
    constructor
    · rintro (rfl | ⟨e', he'⟩)
      · exact ⟨e, by simp⟩
      · exact ⟨e', List.mem_append_left _ he'⟩
    · rintro ⟨e', he'⟩
      rcases List.mem_append.mp he' with he' | he'
      · exact Or.inr ⟨e', he'⟩
      · rw [List.mem_singleton] at he'
        cases he'
        exact Or.inl rfl

variable {σ : Type} {server : Server σ} {limit : Option Duration}

private theorem Walk.Follows.kept : Kept fun h w => w.Follows h where
  symbol hw hstep := hw.symbol _ hstep
  skip hw := hw.skip
  found hw hqueue hstep := hw.found hqueue hstep
  lacking hw := hw.lacking

theorem resolve_follows {fuel : Nat} {t : Trace σ} {s : Session} {symbols : List String}
    {c : Closure} (hrun : (resolve server limit fuel t s symbols).2.2 = some (.ok c)) :
    ∃ w : Walk, w.closure = c ∧ w.queue = [] ∧
      w.Follows (exchanges server limit fuel t s symbols) :=
  (Walk.Follows.kept.run keptByAsking_true fuel t s symbols Walk.Follows.start trivial).2 c hrun

/-- A server that keeps to what it says: if files come of the name of a file, the file of that name is among
those that it hands out in the run; and if an error comes of it, the file is not. -/
structure Consistent (h : List Exchange) : Prop where
  delivers : ∀ name files, ⟨.file name, .ok files⟩ ∈ h → name ∈ receivedNames h
  withholds : ∀ name e, ⟨.file name, .error e⟩ ∈ h → name ∉ receivedNames h

/-- The closure of a successful discovery accounts for every import exactly if the server was consistent. -/
theorem resolve_isImportClosed_iff (server : Server σ) (limit : Option Duration) (fuel : Nat)
    (t : Trace σ) (s : Session) (symbols : List String) (c : Closure)
    (hrun : (resolve server limit fuel t s symbols).2.2 = some (.ok c)) :
    c.IsImportClosed ↔ Consistent (exchanges server limit fuel t s symbols) := by
  obtain ⟨w, rfl, hqueue, hw⟩ := resolve_follows hrun
  have hnames : ∀ name, name ∈ w.closure.names ↔
      name ∈ receivedNames (exchanges server limit fuel t s symbols) := hw.tracks.names
  obtain ⟨past, hpast, hsub⟩ := hw.past
  constructor
  · rintro ⟨hcovered, hdisjoint⟩
    constructor
    · intro name files hmem
      have hqueued : name ∈ w.queued := by
        rw [hpast]
        exact List.mem_append_left _ (hsub.subset (mem_askedNames.mpr ⟨_, hmem⟩))
      obtain ⟨f, hf, hdep⟩ := hw.tracks.imported name hqueued
      rcases hcovered f hf name hdep with hin | hmissing
      · exact (hnames name).mp hin
      · obtain ⟨e, he⟩ := (hw.missing name).mp hmissing
        cases answer_unique hw.nodup_asked hmem he
    · intro name e hmem hreceived
      exact hdisjoint name ((hnames name).mpr hreceived) ((hw.missing name).mpr ⟨e, hmem⟩)
  · rintro ⟨hdelivers, hwithholds⟩
    constructor
    · intro f hf name hdep
      rcases hw.tracks.covered f hf name hdep with hin | hqueued
      · exact Or.inl hin
      · rcases hw.settled name hqueued with hwait | hin | hasked
        · rw [hqueue] at hwait
          cases hwait
        · exact Or.inl hin
        · obtain ⟨answer, hmem⟩ := mem_askedNames.mp hasked
          cases answer with
          | ok files => exact Or.inl ((hnames name).mpr (hdelivers name files hmem))
          | error e => exact Or.inr ((hw.missing name).mpr ⟨e, hmem⟩)
    · intro name hin hmissing
      obtain ⟨e, he⟩ := (hw.missing name).mp hmissing
      exact hwithholds name e he ((hnames name).mp hin)

/-- A file of which only the name and the imports matter. -/
def bareFile (name : String) (dependencies : List String) : File :=
  ⟨some name, none, dependencies, [], [], [], [], [], none, none⟩

def handingOut (files : List File) : List Reply :=
  [⟨.response (.files (files.map File.encode)), ⟨0⟩⟩]

/-- A server that hands out a file of the standard library after it said that it lacks it. -/
def lateTable : Sample.Table :=
  ⟨.served, [
    ("symbol:s.S", handingOut [bareFile "a.proto" ["google/protobuf/x.proto", "b.proto"]]),
    ("file:b.proto",
      handingOut [bareFile "b.proto" [], bareFile "google/protobuf/x.proto" []])], false⟩

/-- What is found at the server that is late. -/
def lateClosure : Closure :=
  ⟨[bareFile "a.proto" ["google/protobuf/x.proto", "b.proto"], bareFile "b.proto" [],
    bareFile "google/protobuf/x.proto" []], ["google/protobuf/x.proto"], by decide⟩

/-- A server that answers a query for a file with no file. -/
def emptyTable : Sample.Table :=
  ⟨.served, [("symbol:s.S", handingOut [bareFile "a.proto" ["b.proto"]]),
    ("file:b.proto", handingOut [])], false⟩

private theorem resolve_lateTable :
    (resolve lateTable.server none 2 (.start []) .new ["s.S"]).2.2 = some (.ok lateClosure) := by
  decide +kernel

theorem resolve_isImportClosed_iff_late :
    (resolve lateTable.server none 2 (.start []) .new ["s.S"]).2.2 = some (.ok lateClosure) ∧
      (lateClosure.IsImportClosed ↔
        Consistent (exchanges lateTable.server none 2 (.start []) .new ["s.S"])) :=
  ⟨resolve_lateTable, resolve_isImportClosed_iff _ _ _ _ _ _ _ resolve_lateTable⟩

/-- A late file is found and noted missing as well, and a file that is not handed out is neither. -/
theorem not_isImportClosed_late_and_empty :
    (∃ c, (resolve lateTable.server none 2 (.start []) .new ["s.S"]).2.2 = some (.ok c) ∧
      ∃ name ∈ c.names, name ∈ c.missing) ∧
    (∃ c, (resolve emptyTable.server none 1 (.start []) .new ["s.S"]).2.2 = some (.ok c) ∧
      ∃ f ∈ c.files, ∃ name ∈ f.dependencies, name ∉ c.names ∧ name ∉ c.missing) := by
  refine ⟨⟨lateClosure, resolve_lateTable, "google/protobuf/x.proto", by decide, by decide⟩,
    ⟨[bareFile "a.proto" ["b.proto"]], [], by decide⟩, by decide +kernel, bareFile "a.proto" ["b.proto"],
    by simp, "b.proto", by decide, by decide, by decide⟩

end RpcGateway.Reflection
