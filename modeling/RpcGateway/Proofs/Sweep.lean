import RpcGateway.Sweep
/-!
# What sweeps remove

A sweep removes the entries of which it is known that they were last changed more than the age ago, and that
can be removed. Each of them goes or stays for itself. What is old enough stays so, and so sweeps at several
times remove together what one sweep at the last of these times would have removed.
-/
namespace RpcGateway.Sweep

variable {α : Type} {maxAge : Duration} {now earlier later : Instant}

/-- An entry is known to have been changed for the last time more than the age before a point in time. -/
def Entry.IsOutdated (maxAge : Duration) (now : Instant) (e : Entry α) : Prop :=
  ∃ modified, e.modified = some modified ∧
    modified.nanoseconds + maxAge.nanoseconds < now.nanoseconds

/-- What is listed is an outdated entry that does not resist its removal. -/
def Listed.Goes (maxAge : Duration) (now : Instant) (item : Listed α) : Prop :=
  ∃ e, item = .entry e ∧ e.IsOutdated maxAge now ∧ e.removable = true

/-- An age has no sign, so that what lies ahead is compared as if it were now. No age is less than that. -/
private theorem lt_age_iff {modified : Instant} :
    maxAge.nanoseconds < (modified.age now).nanoseconds ↔
      modified.nanoseconds + maxAge.nanoseconds < now.nanoseconds := by
  simp only [Instant.age]
  omega

private theorem isStale_iff {e : Entry α} : e.isStale maxAge now = true ↔ e.IsOutdated maxAge now := by
  rw [Entry.isStale, Entry.IsOutdated]
  cases e.modified with
  | none => simp
  | some modified => simp [lt_age_iff]

private theorem isSwept_iff {item : Listed α} : item.isSwept maxAge now = true ↔ item.Goes maxAge now := by
  cases item with
  | unreadable => simp [Listed.isSwept, Listed.Goes]
  | entry e => simp [Listed.isSwept, Listed.Goes, isStale_iff]

instance (maxAge : Duration) (now : Instant) (item : Listed α) : Decidable (item.Goes maxAge now) :=
  decidable_of_iff _ isSwept_iff

private theorem sweepListing_eq_filter (maxAge : Duration) (now : Instant) (items : List (Listed α)) :
    sweepListing maxAge now items =
      (items.filter fun item => ¬ item.Goes maxAge now, items.countP fun item => item.Goes maxAge now) := by
  have hgoes (item : Listed α) : item.isSwept maxAge now = decide (item.Goes maxAge now) := by
    rw [Bool.eq_iff_iff, isSwept_iff, decide_eq_true_eq]
  simp only [sweepListing_eq, hgoes, decide_not]

private theorem sweep_directory (maxAge : Duration) (now : Instant) (items : List (Listed α)) :
    sweep maxAge now (.directory items) =
      .ok (.directory (items.filter fun item => ¬ item.Goes maxAge now),
        items.countP fun item => item.Goes maxAge now) := by
  rw [sweep, sweepListing_eq_filter]

private theorem sweep_eq_error {root : Root α} {e : DiskError} (h : sweep maxAge now root = .error e) :
    root = .file ∧ e = .notDirectory := by
  cases root with
  | missing => cases h
  | file => exact ⟨rfl, (Except.error.inj h).symm⟩
  | directory items => cases h

private theorem countP_goes_add_length (maxAge : Duration) (now : Instant) (items : List (Listed α)) :
    (items.countP fun item => item.Goes maxAge now) +
      (items.filter fun item => ¬ item.Goes maxAge now).length = items.length := by
  rw [← List.countP_eq_length_filter, List.length_eq_countP_add_countP (fun item => item.Goes maxAge now)]
  simp only [decide_eq_true_eq, decide_not]

private theorem sweep_around {before after : List (Listed α)} {item : Listed α}
    (hstays : ¬ item.Goes maxAge now) {leftBefore leftAfter : List (Listed α)}
    {removedBefore removedAfter : Nat}
    (hbefore : sweep maxAge now (.directory before) = .ok (.directory leftBefore, removedBefore))
    (hafter : sweep maxAge now (.directory after) = .ok (.directory leftAfter, removedAfter)) :
    sweep maxAge now (.directory (before ++ item :: after)) =
      .ok (.directory (leftBefore ++ item :: leftAfter), removedBefore + removedAfter) := by
  rw [sweep_directory] at hbefore hafter ⊢
  cases hbefore
  cases hafter
  simp [hstays]

private theorem not_goes_of_ahead {e : Entry α} {modified : Instant} (hmodified : e.modified = some modified)
    (hahead : now.nanoseconds ≤ modified.nanoseconds) : ¬ (Listed.entry e).Goes maxAge now := by
  rintro ⟨_, hentry, ⟨known, hknown, hbefore⟩, _⟩
  cases hentry
  cases hmodified.symm.trans hknown
  omega

private theorem Listed.Goes.mono {item : Listed α} (h : item.Goes maxAge earlier)
    (hle : earlier.nanoseconds ≤ later.nanoseconds) : item.Goes maxAge later := by
  obtain ⟨e, rfl, ⟨modified, hmodified, hbefore⟩, hremovable⟩ := h
  exact ⟨e, rfl, ⟨modified, hmodified, Int.lt_of_lt_of_le hbefore hle⟩, hremovable⟩

section Later

variable (items : List (Listed α)) (hle : earlier.nanoseconds ≤ later.nanoseconds)
include hle

private theorem filter_goes_later :
    (items.filter fun item => ¬ item.Goes maxAge later) =
      (items.filter fun item => ¬ item.Goes maxAge earlier).filter
        fun item => ¬ item.Goes maxAge later := by
  have hstays (item : Listed α) :
      (¬ item.Goes maxAge later ∧ ¬ item.Goes maxAge earlier) ↔ ¬ item.Goes maxAge later :=
    and_iff_left_of_imp fun hlater hearlier => hlater (hearlier.mono hle)
  simp only [List.filter_filter, ← Bool.decide_and, hstays]

private theorem countP_goes_later :
    (items.countP fun item => item.Goes maxAge later) =
      (items.countP fun item => item.Goes maxAge earlier) +
        (items.filter fun item => ¬ item.Goes maxAge earlier).countP
          fun item => item.Goes maxAge later := by
  have hgoes (item : Listed α) :
      (item.Goes maxAge later ∧ item.Goes maxAge earlier) ↔ item.Goes maxAge earlier :=
    and_iff_right_of_imp fun hearlier => hearlier.mono hle
  have hfirst :
      (items.filter fun item => item.Goes maxAge earlier).countP (fun item => item.Goes maxAge later) =
        items.countP fun item => item.Goes maxAge earlier := by
    simp only [List.countP_filter, ← Bool.decide_and, hgoes]
  rw [List.countP_eq_countP_filter_add items _ fun item => item.Goes maxAge earlier, hfirst]
  simp only [decide_not]

end Later

/-- A later sweep removes from what an earlier one has left what it would have removed without it, less what
is gone already. -/
private theorem sweep_of_earlier {root left : Root α} {removed : Nat}
    (hle : earlier.nanoseconds ≤ later.nanoseconds) (h : sweep maxAge earlier root = .ok (left, removed)) :
    ∃ rest more, sweep maxAge later left = .ok (rest, more) ∧
      sweep maxAge later root = .ok (rest, removed + more) := by
  cases root with
  | missing =>
    cases h
    exact ⟨.missing, 0, rfl, rfl⟩
  | file => cases h
  | directory items =>
    rw [sweep_directory] at h
    cases h
    refine ⟨_, _, sweep_directory maxAge later _, ?_⟩
    rw [sweep_directory, filter_goes_later items hle, countP_goes_later items hle]

/-- Sweeps one directory at some times, one after the other, and counts what was removed at any of them. -/
def sweepEach (maxAge : Duration) : List Instant → Root α → Except DiskError (Root α × Nat)
  | [], root => .ok (root, 0)
  | now :: times, root => do
    let (left, removed) ← sweep maxAge now root
    let (rest, more) ← sweepEach maxAge times left
    return (rest, removed + more)

/-- Sweeps that end with the last of them in time have removed what that one would have removed alone. -/
theorem sweepEach_append_last {times : List Instant} {last : Instant}
    (hle : ∀ now ∈ times, now.nanoseconds ≤ last.nanoseconds) (root : Root α) :
    sweepEach maxAge (times ++ [last]) root = sweep maxAge last root := by
  induction times generalizing root with
  | nil =>
    rw [List.nil_append, sweepEach]
    cases sweep maxAge last root with
    | error e => rfl
    | ok swept => rfl
  | cons now times ih =>
    rw [List.cons_append, sweepEach]
    cases hswept : sweep maxAge now root with
    | error e =>
      obtain ⟨rfl, rfl⟩ := sweep_eq_error hswept
      rfl
    | ok swept =>
      obtain ⟨left, removed⟩ := swept
      obtain ⟨rest, more, hleft, hroot⟩ := sweep_of_earlier (hle now (by simp)) hswept
      have hrest := ih (fun now hnow => hle now (List.mem_cons_of_mem _ hnow)) left
      rw [hroot]
      simp only [bind, Except.bind, hrest, hleft, pure, Except.pure]

/-- A sweep removes exactly the entries that are known to be outdated and do not resist, whatever else is
listed, and counts them. An earlier sweep takes away from a later one only what it has removed itself. -/
theorem sweep_removes_outdated (maxAge : Duration) :
    (∀ (now : Instant) (items : List (Listed α)), ∃ left removed,
      sweep maxAge now (.directory items) = .ok (.directory left, removed) ∧
        left = items.filter (fun item => ¬ item.Goes maxAge now) ∧
        removed = items.countP (fun item => item.Goes maxAge now) ∧
        removed + left.length = items.length) ∧
    (∀ (now : Instant) (e : Entry α) (modified : Instant), e.modified = some modified →
      now.nanoseconds ≤ modified.nanoseconds → ¬ (Listed.entry e).Goes maxAge now) ∧
    (∀ (now : Instant) (before after : List (Listed α)) (item : Listed α), ¬ item.Goes maxAge now →
      ∀ leftBefore removedBefore leftAfter removedAfter,
        sweep maxAge now (.directory before) = .ok (.directory leftBefore, removedBefore) →
        sweep maxAge now (.directory after) = .ok (.directory leftAfter, removedAfter) →
        sweep maxAge now (.directory (before ++ item :: after)) =
          .ok (.directory (leftBefore ++ item :: leftAfter), removedBefore + removedAfter)) ∧
    ∀ (earlier later : Instant), earlier.nanoseconds ≤ later.nanoseconds →
      ∀ (root left : Root α) (removed : Nat), sweep maxAge earlier root = .ok (left, removed) →
        ∃ rest more, sweep maxAge later left = .ok (rest, more) ∧
          sweep maxAge later root = .ok (rest, removed + more) := by
  refine ⟨fun now items => ?_, fun now e modified => not_goes_of_ahead, ?_, ?_⟩
  · exact ⟨_, _, sweep_directory maxAge now items, rfl, rfl, countP_goes_add_length maxAge now items⟩
  · intro now before after item hstays _ _ _ _ hbefore hafter
    exact sweep_around hstays hbefore hafter
  · intro earlier later hle root left removed hswept
    exact sweep_of_earlier hle hswept

/-- What a sweep is to leave, between what it is to remove: an entry that cannot be read, one without a date,
one that resists, one of exactly the age and one from ahead. -/
def assorted : List (Listed String) :=
  [.entry ⟨"old", some ⟨0⟩, true⟩, .unreadable, .entry ⟨"undated", none, true⟩,
    .entry ⟨"resisting", some ⟨0⟩, false⟩, .entry ⟨"recent", some ⟨10⟩, true⟩,
    .entry ⟨"ahead", some ⟨30⟩, true⟩, .entry ⟨"older", some ⟨-5⟩, true⟩]

theorem sweep_removes_outdated_assorted :
    (∃ left removed, sweep ⟨10⟩ ⟨20⟩ (.directory assorted) = .ok (.directory left, removed) ∧
      left = assorted.filter (fun item => ¬ item.Goes ⟨10⟩ ⟨20⟩) ∧
      removed = assorted.countP (fun item => item.Goes ⟨10⟩ ⟨20⟩) ∧
      removed + left.length = assorted.length) ∧
    (assorted.countP fun item => item.Goes ⟨10⟩ ⟨20⟩) = 2 ∧
    ¬ (Listed.entry (⟨"ahead", some ⟨30⟩, true⟩ : Entry String)).Goes ⟨10⟩ ⟨20⟩ ∧
    sweep ⟨10⟩ ⟨20⟩
        (.directory (assorted.take 3 ++ .entry ⟨"resisting", some ⟨0⟩, false⟩ :: assorted.drop 4)) =
      .ok (.directory ((assorted.take 3).tail ++ .entry ⟨"resisting", some ⟨0⟩, false⟩ ::
        (assorted.drop 4).dropLast), 1 + 1) ∧
    ∃ rest more,
      sweep ⟨10⟩ ⟨25⟩ (.directory (assorted.tail.dropLast)) = .ok (rest, more) ∧
        sweep ⟨10⟩ ⟨25⟩ (.directory assorted) = .ok (rest, 2 + more) :=
  ⟨(sweep_removes_outdated ⟨10⟩).1 ⟨20⟩ assorted, by decide,
    (sweep_removes_outdated ⟨10⟩).2.1 ⟨20⟩ _ ⟨30⟩ rfl (by decide),
    (sweep_removes_outdated ⟨10⟩).2.2.1 ⟨20⟩ _ _ _ (by decide) _ _ _ _ rfl rfl,
    (sweep_removes_outdated ⟨10⟩).2.2.2 ⟨20⟩ ⟨25⟩ (by decide) _ _ _ rfl⟩

end RpcGateway.Sweep
