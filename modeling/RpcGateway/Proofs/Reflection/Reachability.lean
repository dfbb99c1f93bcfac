import RpcGateway.Proofs.Reflection.BreadthFirst
import RpcGateway.Reflection.Message
/-!
# Reachable files

What a discovery finds at a scripted server. The files that can be reached from the services are defined
by the script alone; a discovery ends well exactly if they are all there, files of the standard library
apart, and it then holds them in breadth-first order. The limit on what a client takes changes nothing as long
as every reply that is asked for is within it.
-/
namespace RpcGateway.Sample.Script

open Reflection
open Schema (File Closure)

variable (script : Script)

/-- A name is reached if it is the file of a service or is imported by a file that is reached. -/
inductive Reaches : String → Prop
  | ofService {service : String} {f : File} (listed : service ∈ script.userServices)
      (mapped : script.serviceFile? service = some f) : Reaches f.nameText
  | ofImport {name other : String} {f : File} (reached : Reaches name)
      (there : script.file? name = some f) (imports : other ∈ f.dependencies) : Reaches other

/-- A name is imported by a file that is reached. -/
def Imports (name : String) : Prop :=
  ∃ other f, script.Reaches other ∧ script.file? other = some f ∧ name ∈ f.dependencies

/-- Every service has its file, and every import that is reached is there or belongs to the standard
library. -/
def IsComplete : Prop :=
  (∀ service ∈ script.userServices, ∃ f, script.serviceFile? service = some f) ∧
    ∀ name, script.Imports name → (∃ f, script.file? name = some f) ∨ Schema.isStandard name = true

/-- What a discovery may ask for: the services, the files of user services, and imports that are reached. -/
inductive Asks : Query → Prop
  | services : Asks .services
  | symbol {service : String} (listed : service ∈ script.userServices) : Asks (.symbol service)
  | file {name : String} (imported : script.Imports name) : Asks (.file name)

/-- No response that a discovery may ask for is too long for a client. -/
def FitsClient : Prop :=
  ∀ query response, script.Asks query → script.outcome query = .response response →
    (response.message query).length ≤ maxMessageLength

variable {script}

private theorem delivered_response_iff {query : Query} {response : Response} :
    (Outcome.response response).delivered query = .response response ↔
      (response.message query).length ≤ maxMessageLength := by
  rw [Outcome.delivered, ← Nat.not_lt]
  split <;> simp [*]

private theorem serves_asked (script : Script) : script.Serves script.Asks script.server where
  opens := script.serves_server.opens
  reads := script.serves_server.reads
  replies state number query _ := script.serves_server.replies state number query trivial

private theorem serves_delivered (h : script.FitsClient) :
    script.Serves script.Asks script.server.delivered where
  opens _ _ := rfl
  reads _ _ := rfl
  replies _ _ query hquery := by
    have hdelivered : (script.outcome query).delivered query = script.outcome query := by
      cases houtcome : script.outcome query with
      | response response =>
        exact delivered_response_iff.mpr (h query response hquery houtcome)
      | failed status => rfl
      | finished => rfl
    simp only [Server.delivered, server, hdelivered]

private theorem mem_importsOf {name other : String} :
    other ∈ script.importsOf name ↔ ∃ f, script.file? name = some f ∧ other ∈ f.dependencies := by
  rw [importsOf]
  cases script.file? name with
  | none => simp
  | some f => simp

private theorem Imports.reaches {name : String} (h : script.Imports name) : script.Reaches name := by
  obtain ⟨other, f, hreached, hthere, himports⟩ := h
  exact .ofImport hreached hthere himports

private theorem mem_roots {name : String} :
    name ∈ script.roots ↔
      ∃ service ∈ script.userServices, ∃ f, script.serviceFile? service = some f ∧
        f.nameText = name := by
  simp only [roots, List.mem_eraseDups, List.mem_map, List.mem_filterMap]
  constructor
  · rintro ⟨f, ⟨service, hlisted, hmapped⟩, hname⟩
    exact ⟨service, hlisted, f, hmapped, hname⟩
  · rintro ⟨service, hlisted, f, hmapped, hname⟩
    exact ⟨f, ⟨service, hlisted, hmapped⟩, hname⟩

private theorem serviceFile?_nameText {service : String} {f : File}
    (h : script.serviceFile? service = some f) : script.file? f.nameText = some f := by
  obtain ⟨entry, -, hfile⟩ := Option.bind_eq_some_iff.mp h
  exact file?_nameText hfile

private theorem isSome_of_mem_roots {name : String} (h : name ∈ script.roots) :
    (script.file? name).isSome := by
  obtain ⟨service, -, f, hmapped, rfl⟩ := mem_roots.mp h
  rw [serviceFile?_nameText hmapped]
  rfl

/-- What every walk at a scripted server keeps: it holds files of the script that are reached, it has
queued imports that are reached, and apart from the roots it has queued exactly what the files it holds
import, in their order. -/
structure Explores (script : Script) (w : Walk) : Prop where
  files : ∀ f ∈ w.closure.files, script.file? f.nameText = some f
  reached : ∀ name ∈ w.closure.names, script.Reaches name
  imported : ∀ name ∈ w.queued, script.Imports name
  known : ∀ name ∈ w.closure.names, name ∈ script.roots ∨ name ∈ w.queued
  order : w.queued.filter (fun name => name ∉ script.roots) =
    fresh script.roots (w.closure.names.flatMap script.importsOf)
  distinct : w.queued.Nodup

private theorem filter_fresh (known first names : List String) :
    (fresh known names).filter (fun name => name ∉ first) = fresh (known ++ first) names := by
  rw [fresh, filter_eraseDups, List.filter_filter, fresh]
  congr 1
  apply List.filter_congr
  intro name _
  by_cases hk : name ∈ known <;> by_cases hf : name ∈ first <;> simp [hk, hf]

private theorem Explores.mem_queued_iff {w : Walk} (h : script.Explores w) {name : String}
    (hroot : name ∉ script.roots) :
    name ∈ w.queued ↔ name ∈ w.closure.names.flatMap script.importsOf := by
  have hmem : name ∈ w.queued.filter (fun n => n ∉ script.roots) ↔
      name ∈ fresh script.roots (w.closure.names.flatMap script.importsOf) := by rw [h.order]
  simpa [mem_fresh, hroot] using hmem

theorem Explores.isSome {w : Walk} (h : script.Explores w) {name : String}
    (hin : name ∈ w.closure.names) : (script.file? name).isSome := by
  obtain ⟨f, hf, rfl⟩ := List.mem_map.mp hin
  rw [h.files f hf]
  rfl

private theorem Explores.grow {w : Walk} (h : script.Explores w) {f : File}
    (hfile : script.file? f.nameText = some f) (hnew : f.nameText ∉ w.closure.names)
    (hreached : script.Reaches f.nameText)
    (hknown : f.nameText ∈ script.roots ∨ f.nameText ∈ w.queued) : script.Explores (w.grow f) := by
  have hdeps : script.importsOf f.nameText = f.dependencies := by rw [importsOf, hfile]
  refine ⟨?_, ?_, ?_, ?_, ?_, Walk.nodup_queued_grow h.distinct f⟩
  · intro g hg
    rw [Walk.files_grow hnew, List.mem_append, List.mem_singleton] at hg
    rcases hg with hg | rfl
    · exact h.files g hg
    · exact hfile
  · intro name hname
    rw [Walk.names_grow hnew, List.mem_append, List.mem_singleton] at hname
    rcases hname with hname | rfl
    · exact h.reached name hname
    · exact hreached
  · intro name hname
    rcases Walk.mem_queued_grow.mp hname with hname | hname
    · exact h.imported name hname
    · exact ⟨f.nameText, f, hreached, hfile, hname.1⟩
  · intro name hname
    rw [Walk.names_grow hnew, List.mem_append, List.mem_singleton] at hname
    rw [Walk.mem_queued_grow]
    rcases hname with hname | rfl
    · have hin := h.known name hname
      tauto
    · tauto
  · -- The imports that are new to the walk are those that are new to the roots and its imports.
    have hsame : ∀ name, name ∈ w.closure.names ++ w.queued ++ script.roots ↔
        name ∈ script.roots ++ w.closure.names.flatMap script.importsOf := by
      intro name
      by_cases hroot : name ∈ script.roots
      · simp only [List.mem_append, hroot, or_true, true_or]
      · rw [List.mem_append, List.mem_append, List.mem_append, ← h.mem_queued_iff hroot]
        have hin := h.known name
        tauto
    rw [Walk.queued_grow, Walk.names_grow hnew, List.filter_append, h.order, filter_fresh,
      fresh_congr hsame, List.flatMap_append, fresh_append]
    simp only [List.flatMap_singleton, hdeps]

private theorem Explores.withQueue {w : Walk} (h : script.Explores w) (queue : List String) :
    script.Explores { w with queue } :=
  ⟨h.files, h.reached, h.imported, h.known, h.order, h.distinct⟩

theorem Explores.noteMissing {w : Walk} (h : script.Explores w) (name : String) :
    script.Explores { w with closure := w.closure.noteMissing name } :=
  ⟨h.files, h.reached, h.imported, h.known, h.order, h.distinct⟩

private theorem takeIn_singleton (w : Walk) (f : File) : w.takeIn [f] = w.takeInFile f := by
  rw [Walk.takeIn, List.foldlM_cons]
  cases w.takeInFile f <;> rfl

/-- A walk at the end of the first part: it holds the files of some services, all that it has queued is in
its queue, and nothing was noted missing. -/
structure Rooted (script : Script) (services : List String) (w : Walk) : Prop where
  explores : script.Explores w
  names : w.closure.names =
    ((services.filterMap script.serviceFile?).map File.nameText).eraseDups
  queue : w.queue = w.queued
  missing : w.closure.missing = []

private theorem Rooted.start : script.Rooted [] Walk.start := by
  refine ⟨⟨?_, ?_, ?_, ?_, ?_, ?_⟩, ?_, rfl, rfl⟩ <;>
    simp [Walk.start, Closure.empty, Closure.names, fresh]

private theorem Rooted.takeInFile {services : List String} {w : Walk} (h : script.Rooted services w)
    {service : String} {f : File} (hlisted : service ∈ script.userServices)
    (hmapped : script.serviceFile? service = some f) (hname : f.nameText ≠ "") :
    ∃ w', w.takeInFile f = .ok w' ∧ script.Rooted (services ++ [service]) w' := by
  have hroots : f.nameText ∈ script.roots := mem_roots.mpr ⟨service, hlisted, f, hmapped, rfl⟩
  have hmap : ((services ++ [service]).filterMap script.serviceFile?).map File.nameText =
      (services.filterMap script.serviceFile?).map File.nameText ++ [f.nameText] := by
    simp [hmapped]
  by_cases hin : f.nameText ∈ w.closure.names
  · refine ⟨w, Walk.takeInFile_known hname hin, h.explores, ?_, h.queue, h.missing⟩
    rw [h.names, List.mem_eraseDups] at hin
    rw [hmap, eraseDups_concat, if_pos hin, List.append_nil, h.names]
  · refine ⟨w.grow f, Walk.takeInFile_new hname hin, ?_, ?_, ?_, ?_⟩
    · exact h.explores.grow (serviceFile?_nameText hmapped) hin (.ofService hlisted hmapped)
        (Or.inl hroots)
    · have hout := hin
      rw [h.names, List.mem_eraseDups] at hout
      rw [Walk.names_grow hin, hmap, eraseDups_concat, if_neg hout, h.names]
    · rw [Walk.queue_grow, Walk.queued_grow, h.queue]
    · rw [Walk.missing_grow, h.missing]

variable {limit : Option Duration}

private theorem askSymbols_server {server : Server Unit} (hserves : script.Serves script.Asks server)
    (hread : script.ReadsBack) (hnamed : ∀ f ∈ script.files, f.nameText ≠ "") (hl : IsPositive limit)
    {done rest : List String} (hservices : done ++ rest = script.userServices)
    {t : Trace Unit} {s : Session} {w : Walk} (hs : s.CanAsk) (ht : t.elapsed = ⟨0⟩)
    (hw : script.Rooted done w) :
    ∃ t' s' result, askSymbols server limit t s w rest = (t', s', result) ∧
      ((∃ w', result = .ok w' ∧ script.Rooted script.userServices w' ∧ s'.CanAsk ∧
          t'.elapsed = ⟨0⟩ ∧
          ∀ service ∈ rest, ∃ f, script.serviceFile? service = some f) ∨
        ∃ e, result = .error e ∧
          ∃ service ∈ script.userServices, script.serviceFile? service = none) := by
  induction rest generalizing done t s w with
  | nil =>
    rw [List.append_nil] at hservices
    exact ⟨t, s, .ok w, rfl, Or.inl ⟨w, rfl, hservices ▸ hw, hs, ht, by simp⟩⟩
  | cons service rest ih =>
    have hlisted : service ∈ script.userServices := by
      rw [← hservices]
      simp
    obtain ⟨t₁, s₁, hreply, ht₁, -, hok⟩ :=
      hserves.requestFiles hs hl ht (.symbol hlisted)
    cases hmapped : script.serviceFile? service with
    | none =>
      obtain ⟨e, he⟩ := answer_symbol_none hmapped
      refine ⟨t₁, s₁, .error e, ?_, Or.inr ⟨e, rfl, service, hlisted, hmapped⟩⟩
      rw [he] at hreply
      simp [askSymbols, hreply]
    | some f =>
      have hanswer := answer_symbol_some hread hmapped
      have hname : f.nameText ≠ "" :=
        hnamed f (mem_of_file? (serviceFile?_nameText hmapped)).1
      obtain ⟨w₁, hstep, hw₁⟩ := hw.takeInFile hlisted hmapped hname
      obtain ⟨t', s', result, hrun, hresult⟩ :=
        ih (by simpa using hservices) (hok [f] hanswer) ht₁ hw₁
      refine ⟨t', s', result, ?_, ?_⟩
      · rw [hanswer] at hreply
        simp [askSymbols, hreply, takeIn_singleton, hstep, hrun]
      · rcases hresult with ⟨w', hw', hrooted, hs', ht', hmaps⟩ | herror
        · refine Or.inl ⟨w', hw', hrooted, hs', ht', ?_⟩
          intro other hother
          rcases List.mem_cons.mp hother with rfl | hother
          · exact ⟨f, hmapped⟩
          · exact hmaps other hother
        · exact Or.inr herror

/-- A walk in the second part, with the names that were taken from the queue: those that are files are
held after the roots, and the others are missing files of the standard library. -/
structure Unfolds (script : Script) (past : List String) (w : Walk) : Prop where
  explores : script.Explores w
  queued : w.queued = past ++ w.queue
  names : w.closure.names = script.roots ++
    (script.present past).filter fun name => name ∉ script.roots
  missing : ∀ name, name ∈ w.closure.missing ↔ name ∈ past ∧ script.file? name = none
  standard : ∀ name ∈ past, script.file? name = none → Schema.isStandard name = true

private theorem Rooted.unfolds {w : Walk} (h : script.Rooted script.userServices w) :
    script.Unfolds [] w := by
  refine ⟨h.explores, by simp [h.queue], ?_, by simp [h.missing], by simp⟩
  rw [h.names]
  simp [roots, present]

private theorem Unfolds.not_mem_past {past : List String} {w : Walk} (h : script.Unfolds past w)
    {name : String} {queue : List String} (hqueue : w.queue = name :: queue) : name ∉ past := by
  have hnd := h.explores.distinct
  rw [h.queued, hqueue, List.nodup_append] at hnd
  intro hin
  exact hnd.2.2 name hin name (by simp) rfl

/-- Taking the first name from the queue: the walk may queue more, holds the file of the name after
this unless it is a root, and has noted the name if it is no file. -/
private theorem Unfolds.next {past : List String} {w w' : Walk} (h : script.Unfolds past w)
    {name : String} {queue added : List String} (hqueue : w.queue = name :: queue)
    (hexplores : script.Explores w') (hqueued : w'.queued = w.queued ++ added)
    (hqueue' : w'.queue = queue ++ added)
    (hnames : w'.closure.names = w.closure.names ++
      (script.present [name]).filter fun n => n ∉ script.roots)
    (hmissing : ∀ n, n ∈ w'.closure.missing ↔
      n ∈ w.closure.missing ∨ n = name ∧ script.file? name = none)
    (hstandard : script.file? name = none → Schema.isStandard name = true) :
    script.Unfolds (past ++ [name]) w' := by
  refine ⟨hexplores, ?_, ?_, ?_, ?_⟩
  · rw [hqueued, hqueue', h.queued, hqueue]
    simp
  · rw [hnames, h.names, present_append, List.filter_append, List.append_assoc]
  · intro other
    rw [hmissing, h.missing, List.mem_append, List.mem_singleton]
    constructor
    · rintro (⟨hpast, hnone⟩ | ⟨rfl, hnone⟩)
      · exact ⟨Or.inl hpast, hnone⟩
      · exact ⟨Or.inr rfl, hnone⟩
    · rintro ⟨hpast | rfl, hnone⟩
      · exact Or.inl ⟨hpast, hnone⟩
      · exact Or.inr ⟨rfl, hnone⟩
  · intro other hother hnone
    rcases List.mem_append.mp hother with hother | hother
    · exact h.standard other hother hnone
    · obtain rfl := List.mem_singleton.mp hother
      exact hstandard hnone

private theorem Unfolds.skip {past : List String} {w : Walk} (h : script.Unfolds past w)
    {name : String} {queue : List String} (hqueue : w.queue = name :: queue)
    (hin : name ∈ w.closure.names) : script.Unfolds (past ++ [name]) { w with queue } := by
  have hsome : script.file? name ≠ none := Option.isSome_iff_ne_none.mp (h.explores.isSome hin)
  -- A name that still waits was not taken from the queue before, so only the roots can hold it.
  have hroot : name ∈ script.roots := by
    rw [h.names, List.mem_append, List.mem_filter, mem_present] at hin
    rcases hin with hin | hin
    · exact hin
    · exact (h.not_mem_past hqueue hin.1.1).elim
  have hwith := h.explores.withQueue queue
  apply h.next hqueue hwith (List.append_nil _).symm (List.append_nil _).symm
  · simp [present, hroot, List.filter_filter]
  · intro other
    simp [hsome]
  · intro hnone
    exact (hsome hnone).elim

private theorem Unfolds.found {past : List String} {w : Walk} (h : script.Unfolds past w)
    {name : String} {queue : List String} (hqueue : w.queue = name :: queue)
    (hout : name ∉ w.closure.names) {f : File} (hfile : script.file? name = some f) :
    script.Unfolds (past ++ [name]) (Walk.grow { w with queue } f) := by
  obtain rfl : f.nameText = name := (mem_of_file? hfile).2
  have hqueued : f.nameText ∈ w.queued := by simp [h.queued, hqueue]
  have hroot : f.nameText ∉ script.roots := by
    intro hroot
    apply hout
    rw [h.names]
    exact List.mem_append_left _ hroot
  have hreached := (h.explores.imported _ hqueued).reaches
  have hgrown := (h.explores.withQueue queue).grow hfile hout hreached (Or.inr hqueued)
  have hnames : (Walk.grow { w with queue } f).closure.names = w.closure.names ++ [f.nameText] :=
    Walk.names_grow hout
  apply h.next hqueue hgrown (Walk.queued_grow _ _) (Walk.queue_grow _ _)
  · rw [hnames]
    simp [present, hfile, hroot]
  · intro other
    rw [Walk.missing_grow]
    simp [hfile]
  · intro hnone
    simp [hfile] at hnone

private theorem Unfolds.lacking {past : List String} {w : Walk} (h : script.Unfolds past w)
    {name : String} {queue : List String} (hqueue : w.queue = name :: queue)
    (hnone : script.file? name = none) (hstandard : Schema.isStandard name = true) :
    script.Unfolds (past ++ [name])
      { w with queue, closure := w.closure.noteMissing name } := by
  have hnoted := (h.explores.withQueue queue).noteMissing name
  apply h.next hqueue hnoted (List.append_nil _).symm (List.append_nil _).symm
  · simp [present, hnone]
  · intro other
    rw [Closure.mem_missing_noteMissing]
    simp [hnone, or_comm]
  · intro _
    exact hstandard

private theorem Explores.length_queued_le {w : Walk} (h : script.Explores w) :
    w.queued.length ≤ script.importCount := by
  have hsub : w.queued ⊆ script.files.flatMap (·.dependencies) := by
    intro name hname
    obtain ⟨other, f, -, hfile, himports⟩ := h.imported name hname
    exact List.mem_flatMap.mpr ⟨f, (mem_of_file? hfile).1, himports⟩
  exact (List.subperm_of_subset h.distinct hsub).length_le

private theorem askImports_server {server : Server Unit} (hserves : script.Serves script.Asks server)
    (hread : script.ReadsBack) (hnamed : ∀ f ∈ script.files, f.nameText ≠ "") (hl : IsPositive limit)
    {fuel : Nat} {past : List String} {t : Trace Unit} {s : Session} {w : Walk} (hs : s.CanAsk)
    (ht : t.elapsed = ⟨0⟩) (hw : script.Unfolds past w)
    (hfuel : script.importCount ≤ fuel + past.length) :
    ∃ t' s' result, askImports server limit fuel t s w = (t', s', some result) ∧
      ((∃ w' past', result = .ok w' ∧ script.Unfolds past' w' ∧ w'.queue = []) ∨
        ∃ e, result = .error e ∧ ∃ name, script.Imports name ∧ script.file? name = none ∧
          Schema.isStandard name = false) := by
  induction fuel generalizing past t s w with
  | zero =>
    have hempty : w.queue = [] := by
      have hle := hw.explores.length_queued_le
      rw [hw.queued, List.length_append] at hle
      exact List.eq_nil_of_length_eq_zero (by omega)
    exact ⟨t, s, .ok w, by simp [askImports, hempty], Or.inl ⟨w, past, rfl, hw, hempty⟩⟩
  | succ fuel ih =>
    cases hqueue : w.queue with
    | nil =>
      exact ⟨t, s, .ok w, by simp [askImports, hqueue], Or.inl ⟨w, past, rfl, hw, hqueue⟩⟩
    | cons name queue =>
      have hfuel' : script.importCount ≤ fuel + (past ++ [name]).length := by
        simp only [List.length_append, List.length_singleton]
        omega
      have himports : script.Imports name := by
        apply hw.explores.imported
        simp [hw.queued, hqueue]
      by_cases hin : name ∈ w.closure.names
      · obtain ⟨t', s', result, hrun, hresult⟩ := ih hs ht (hw.skip hqueue hin) hfuel'
        refine ⟨t', s', result, ?_, hresult⟩
        simp [askImports, hqueue, Closure.contains_iff.mpr hin, hrun]
      · have hcontains : w.closure.contains name = false := by
          rw [← Bool.not_eq_true, Closure.contains_iff]
          exact hin
        obtain ⟨t₁, s₁, hreply, ht₁, hreopen, hok⟩ :=
          hserves.requestFiles hs hl ht (.file himports)
        cases hfile : script.file? name with
        | some f =>
          have hanswer := answer_file_some hread hfile
          have hname : f.nameText = name := (mem_of_file? hfile).2
          have hstep : Walk.takeIn { w with queue } [f] = .ok (Walk.grow { w with queue } f) := by
            rw [takeIn_singleton]
            exact Walk.takeInFile_new (hnamed f (mem_of_file? hfile).1) (hname ▸ hin)
          obtain ⟨t', s', result, hrun, hresult⟩ :=
            ih (hok [f] hanswer) ht₁ (hw.found hqueue hin hfile) hfuel'
          refine ⟨t', s', result, ?_, hresult⟩
          rw [hanswer] at hreply
          simp [askImports, hqueue, hcontains, hreply, hstep, hrun]
        | none =>
          obtain ⟨e, he, hnot⟩ := answer_file_none hfile
          rw [he] at hreply
          cases hstandard : Schema.isStandard name with
          | true =>
            obtain ⟨t', s', result, hrun, hresult⟩ :=
              ih hreopen ht₁ (hw.lacking hqueue hfile hstandard) hfuel'
            refine ⟨t', s', result, ?_, hresult⟩
            simp [askImports, hqueue, hcontains, hreply, hstandard, hnot, hrun]
          | false =>
            refine ⟨t₁, s₁, .error e, ?_, Or.inr ⟨e, rfl, name, himports, hfile, hstandard⟩⟩
            simp [askImports, hqueue, hcontains, hreply, hstandard]

private theorem Unfolds.mem_names {past : List String} {w : Walk} (h : script.Unfolds past w)
    (hqueue : w.queue = []) {name : String} (hreached : script.Reaches name)
    (hsome : (script.file? name).isSome) : name ∈ w.closure.names := by
  have hqueued : w.queued = past := by rw [h.queued, hqueue, List.append_nil]
  induction hreached with
  | ofService hlisted hmapped =>
    rw [h.names]
    exact List.mem_append_left _ (mem_roots.mpr ⟨_, hlisted, _, hmapped, rfl⟩)
  | @ofImport name other f hreached hthere himports ih =>
    have hin := ih (by simp [hthere])
    rw [h.names, List.mem_append, List.mem_filter, mem_present, ← hqueued]
    by_cases hroot : other ∈ script.roots
    · exact Or.inl hroot
    · have hmem : other ∈ w.closure.names.flatMap script.importsOf :=
        List.mem_flatMap.mpr ⟨name, hin, mem_importsOf.mpr ⟨f, hthere, himports⟩⟩
      exact Or.inr ⟨⟨(h.explores.mem_queued_iff hroot).mpr hmem, hsome⟩, by simpa using hroot⟩

private theorem Unfolds.mem_past {past : List String} {w : Walk} (h : script.Unfolds past w)
    (hqueue : w.queue = []) {name : String} (himports : script.Imports name)
    (hnone : script.file? name = none) : name ∈ past := by
  have hqueued : w.queued = past := by rw [h.queued, hqueue, List.append_nil]
  obtain ⟨other, f, hreached, hthere, hdep⟩ := himports
  have hin := h.mem_names hqueue hreached (by simp [hthere])
  have hroot : name ∉ script.roots := by
    intro hroot
    have hsome := isSome_of_mem_roots hroot
    simp [hnone] at hsome
  rw [← hqueued, h.explores.mem_queued_iff hroot]
  exact List.mem_flatMap.mpr ⟨other, hin, mem_importsOf.mpr ⟨f, hthere, hdep⟩⟩

theorem Unfolds.breadthFirst {past : List String} {w : Walk} (h : script.Unfolds past w)
    (hqueue : w.queue = []) : w.closure.names = script.breadthFirst := by
  have hqueued : w.queued = past := by rw [h.queued, hqueue, List.append_nil]
  have hnd : w.closure.names.Nodup := w.closure.distinct
  apply breadthFirst_eq hnd
  · intro name hname
    exact h.explores.isSome hname
  · rw [← present_fresh, ← h.explores.order, hqueued, ← filter_present]
    exact h.names
  · intro closed hroots hclosed name hname
    have hmem : ∀ name, script.Reaches name → (script.file? name).isSome → name ∈ closed := by
      intro name hreached
      induction hreached with
      | ofService hlisted hmapped =>
        intro _
        exact hroots (mem_roots.mpr ⟨_, hlisted, _, hmapped, rfl⟩)
      | @ofImport name other f hreached hthere himports ih =>
        intro hsome
        have hin := ih (by simp [hthere])
        refine hclosed other (mem_present.mpr ⟨?_, hsome⟩)
        exact List.mem_flatMap.mpr ⟨name, hin, mem_importsOf.mpr ⟨f, hthere, himports⟩⟩
    exact hmem name (h.explores.reached name hname) (h.explores.isSome hname)

private theorem mem_files_of_mem_names {c : Closure}
    (hfiles : ∀ f ∈ c.files, script.file? f.nameText = some f) {name : String} {f : File}
    (hin : name ∈ c.names) (hthere : script.file? name = some f) : f ∈ c.files := by
  obtain ⟨g, hg, rfl⟩ := List.mem_map.mp hin
  have heq := (hfiles g hg).symm.trans hthere
  cases heq
  exact hg

/-- What a successful discovery at a scripted server holds. -/
structure Found (script : Script) (d : Discovery) : Prop where
  services : d.services = script.userServices
  files : ∀ f, f ∈ d.closure.files ↔ ∃ name, script.Reaches name ∧ script.file? name = some f
  names : d.closure.names = script.breadthFirst
  distinct : d.closure.names.Nodup
  missing : ∀ name, name ∈ d.closure.missing ↔
    script.Imports name ∧ script.file? name = none

private theorem Unfolds.found_discovery {past : List String} {w : Walk} (h : script.Unfolds past w)
    (hqueue : w.queue = []) : script.Found ⟨script.userServices, w.closure⟩ := by
  have hqueued : w.queued = past := by rw [h.queued, hqueue, List.append_nil]
  refine ⟨rfl, ?_, h.breadthFirst hqueue, w.closure.distinct, ?_⟩
  · intro f
    constructor
    · intro hf
      exact ⟨f.nameText, h.explores.reached _ (List.mem_map_of_mem hf), h.explores.files f hf⟩
    · rintro ⟨name, hreached, hthere⟩
      exact mem_files_of_mem_names h.explores.files
        (h.mem_names hqueue hreached (by simp [hthere])) hthere
  · intro name
    rw [h.missing]
    constructor
    · rintro ⟨hpast, hnone⟩
      exact ⟨h.explores.imported name (hqueued ▸ hpast), hnone⟩
    · rintro ⟨himports, hnone⟩
      exact ⟨h.mem_past hqueue himports hnone, hnone⟩

private theorem askServices_server {server : Server Unit} (hserves : script.Serves script.Asks server)
    (hl : IsPositive limit) (t : Trace Unit) :
    ∃ t' s', askServices server limit t.restart .new = (t', s', .ok script.userServices) ∧
      s'.CanAsk ∧ t'.elapsed = ⟨0⟩ := by
  have hstart : t.restart.elapsed = ⟨0⟩ := rfl
  obtain ⟨t', s', hrequest, helapsed, -, hok⟩ :=
    hserves.request Session.canAsk_new hl hstart .services
  refine ⟨t', s', ?_, hok _ rfl, helapsed⟩
  rw [askServices, hrequest]
  rfl

private theorem not_isComplete_of_service {service : String} (hlisted : service ∈ script.userServices)
    (hlacks : script.serviceFile? service = none) : ¬script.IsComplete := by
  rintro ⟨hservices, -⟩
  obtain ⟨f, hf⟩ := hservices service hlisted
  rw [hlacks] at hf
  cases hf

private theorem not_isComplete_of_import {name : String} (himports : script.Imports name)
    (hlacks : script.file? name = none) (hforeign : Schema.isStandard name = false) :
    ¬script.IsComplete := by
  rintro ⟨-, himported⟩
  rcases himported name himports with ⟨f, hf⟩ | hstandard
  · rw [hlacks] at hf
    cases hf
  · rw [hforeign] at hstandard
    cases hstandard

private theorem failed_discovery {e : Error} (hfails : ¬script.IsComplete) :
    ((∃ d : Discovery, Except.error e = .ok d) ↔ script.IsComplete) ∧
      ∀ d : Discovery, Except.error e = .ok d → script.Found d := by
  refine ⟨⟨?_, fun hcomplete => (hfails hcomplete).elim⟩, ?_⟩
  · rintro ⟨d, hd⟩
    cases hd
  · intro d hd
    cases hd

/-- A discovery ends. It ends well exactly if the script is complete, and then it holds what is reached. -/
def FindsReached (script : Script) (run : Option (Except Error Discovery)) : Prop :=
  ∃ result, run = some result ∧ ((∃ d, result = .ok d) ↔ script.IsComplete) ∧
    ∀ d, result = .ok d → script.Found d

private theorem Serves.findsReached {server : Server Unit} (hserves : script.Serves script.Asks server)
    (hread : script.ReadsBack) (hnamed : ∀ f ∈ script.files, f.nameText ≠ "") (hl : IsPositive limit)
    {fuel : Nat} (hfuel : script.importCount ≤ fuel) (t : Trace Unit) :
    script.FindsReached (discover server limit fuel t).2 := by
  obtain ⟨t₁, s₁, hservices, hs₁, ht₁⟩ := askServices_server hserves hl t
  obtain ⟨t₂, s₂, symbols, hsymbols, hroots⟩ :=
    askSymbols_server hserves hread hnamed hl (List.nil_append _) hs₁ ht₁ Rooted.start
  rcases hroots with ⟨w, rfl, hw, hs₂, ht₂, hmapped⟩ | ⟨e, rfl, service, hlisted, hlacks⟩
  · obtain ⟨t₃, s₃, imports, himports, hwalk⟩ :=
      askImports_server hserves hread hnamed hl hs₂ ht₂ hw.unfolds (by simpa using hfuel)
    rcases hwalk with ⟨w', past, rfl, hw', hqueue⟩ | ⟨e, rfl, name, hname, hlacks, hforeign⟩
    · have hcomplete : script.IsComplete := by
        refine ⟨hmapped, ?_⟩
        intro name hname
        cases hfile : script.file? name with
        | some f => exact Or.inl ⟨f, rfl⟩
        | none => exact Or.inr (hw'.standard name (hw'.mem_past hqueue hname hfile) hfile)
      refine ⟨.ok ⟨script.userServices, w'.closure⟩, ?_, ?_, ?_⟩
      · simp [discover, hservices, resolve, hsymbols, himports, Except.map]
      · exact ⟨fun _ => hcomplete, fun _ => ⟨_, rfl⟩⟩
      · intro d hd
        cases hd
        exact hw'.found_discovery hqueue
    · refine ⟨.error e, ?_, failed_discovery (not_isComplete_of_import hname hlacks hforeign)⟩
      simp [discover, hservices, resolve, hsymbols, himports, Except.map]
  · refine ⟨.error e, ?_, failed_discovery (not_isComplete_of_service hlisted hlacks)⟩
    simp [discover, hservices, resolve, hsymbols, Except.map]

/-- A discovery at a scripted server finds what is reached: each file once and as it was written, in
breadth-first order, with the imports that the server lacks beside them. So does a client with its limit, if no
reply is too long for it. -/
theorem discover_server (script : Script) (hread : script.ReadsBack)
    (hnamed : ∀ f ∈ script.files, f.nameText ≠ "") (limit : Option Duration) (hl : IsPositive limit)
    (fuel : Nat) (hfuel : script.importCount ≤ fuel) (t : Trace Unit) :
    script.FindsReached (discover script.server limit fuel t).2 ∧
      (script.FitsClient → script.FindsReached (discover script.server.delivered limit fuel t).2) := by
  refine ⟨script.serves_asked.findsReached hread hnamed hl hfuel t, fun hfits => ?_⟩
  exact (serves_delivered hfits).findsReached hread hnamed hl hfuel t

/-- Two services with files that import each other, a file that both import and that imports itself, and
an import that only the standard library has. -/
def tangled : Script :=
  let file (name : String) (dependencies : List String) : File :=
    ⟨some name, none, dependencies, [], [], [], [], [], none, none⟩
  ⟨[("a.A", "a.proto"), ("grpc.reflection.v1.ServerReflection", "r.proto"), ("b.B", "b.proto")],
    [file "a.proto" ["c.proto", "b.proto"], file "b.proto" ["a.proto", "c.proto"],
      file "c.proto" ["google/protobuf/empty.proto", "c.proto", "d.proto"], file "d.proto" []], true⟩

private theorem readsBack_tangled : tangled.ReadsBack := by
  intro f hf
  simp only [tangled, List.mem_cons, List.not_mem_nil, or_false] at hf
  rcases hf with rfl | rfl | rfl | rfl <;> decide +kernel

private theorem userServices_tangled : tangled.userServices = ["a.A", "b.B"] := by
  decide +kernel

private theorem mem_of_imports_tangled {name : String} (h : tangled.Imports name) :
    name ∈ ["a.proto", "b.proto", "c.proto", "d.proto", "google/protobuf/empty.proto"] := by
  obtain ⟨_, f, -, hfile, himports⟩ := h
  have hnamed : name ∈ tangled.files.flatMap (·.dependencies) :=
    List.mem_flatMap.mpr ⟨f, (mem_of_file? hfile).1, himports⟩
  simp only [tangled, List.flatMap_cons, List.flatMap_nil, List.mem_append, List.mem_cons,
    List.not_mem_nil, or_false] at hnamed
  rcases hnamed with (rfl | rfl) | (rfl | rfl) | rfl | rfl | rfl <;> simp

private theorem isComplete_tangled : tangled.IsComplete := by
  constructor
  · intro service hlisted
    rw [userServices_tangled] at hlisted
    simp only [List.mem_cons, List.not_mem_nil, or_false] at hlisted
    rcases hlisted with rfl | rfl
    · exact ⟨_, rfl⟩
    · exact ⟨_, rfl⟩
  · intro name himports
    have hname := mem_of_imports_tangled himports
    simp only [List.mem_cons, List.not_mem_nil, or_false] at hname
    rcases hname with rfl | rfl | rfl | rfl | rfl
    · exact Or.inl ⟨_, rfl⟩
    · exact Or.inl ⟨_, rfl⟩
    · exact Or.inl ⟨_, rfl⟩
    · exact Or.inl ⟨_, rfl⟩
    · exact Or.inr (by decide +kernel)

private theorem fitsClient_tangled : tangled.FitsClient := by
  let queries : List Query := [.services, .symbol "a.A", .symbol "b.B", .file "a.proto", .file "b.proto",
    .file "c.proto", .file "d.proto", .file "google/protobuf/empty.proto"]
  have hdelivered : ∀ query ∈ queries,
      (tangled.outcome query).delivered query = tangled.outcome query := by
    decide +kernel
  intro query response hquery houtcome
  have hmem : query ∈ queries := by
    cases hquery with
    | services => exact List.mem_cons_self
    | @symbol service listed =>
      rw [userServices_tangled] at listed
      simp only [List.mem_cons, List.not_mem_nil, or_false] at listed
      rcases listed with rfl | rfl <;> simp [queries]
    | @file name imported =>
      have hname := mem_of_imports_tangled imported
      simp only [List.mem_cons, List.not_mem_nil, or_false] at hname
      rcases hname with rfl | rfl | rfl | rfl | rfl <;> simp [queries]
  have htaken := hdelivered query hmem
  rw [houtcome] at htaken
  exact delivered_response_iff.mp htaken

/-- The files of the services come first, then what these import; one import is missing. -/
theorem discover_server_tangled :
    ∃ d, (discover tangled.server.delivered none 8 (.start ())).2 = some (.ok d) ∧ tangled.Found d ∧
      d.closure.names = ["a.proto", "b.proto", "c.proto", "d.proto"] ∧
      "google/protobuf/empty.proto" ∈ d.closure.missing := by
  obtain ⟨result, hresult, hcomplete, hfound⟩ := (discover_server tangled readsBack_tangled (by decide) none
    isPositive_none 8 (by decide) (.start ())).2 fitsClient_tangled
  obtain ⟨d, rfl⟩ := hcomplete.mpr isComplete_tangled
  have hnames : d.closure.names = ["a.proto", "b.proto", "c.proto", "d.proto"] := by
    rw [(hfound d rfl).names]
    decide +kernel
  refine ⟨d, hresult, hfound d rfl, hnames, ?_⟩
  have ha : tangled.Reaches "a.proto" := @Reaches.ofService tangled "a.A" _ (by decide +kernel) rfl
  have hc : tangled.Reaches "c.proto" := .ofImport ha rfl List.mem_cons_self
  exact ((hfound d rfl).missing _).mpr ⟨⟨"c.proto", _, hc, rfl, List.mem_cons_self⟩, rfl⟩

end RpcGateway.Sample.Script
