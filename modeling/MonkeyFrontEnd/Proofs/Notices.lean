import MonkeyFrontEnd.Parse

/-!
# The list of errors

The errors of a source text are its illegal characters and the faults of its statements, merged in
the order in which they are noticed. The merge loses nothing, and keeps the order within each of
the two kinds: without the illegal characters the errors are those that the events report.
-/

set_option autoImplicit false

namespace MonkeyFrontEnd

namespace Parse

/-- The errors that are not about illegal characters. -/
def faults (p : Parse) : List ParseError :=
  p.errors.filter (·.illegal?.isNone)

/-- The illegal characters among the errors. -/
def illegals (p : Parse) : List IllegalChar :=
  p.errors.filterMap ParseError.illegal?

/-- The merge without the entries of its first list is its second. -/
theorem Notice.filter_inOrder {p : Notice → Bool} {xs : List Notice} (h : ∀ x ∈ xs, p x = false)
    (ys : List Notice) : (inOrder xs ys).filter p = ys.filter p := by
  have none : ∀ zs ⊆ xs, zs.filter p = [] := fun zs sub =>
    List.filter_eq_nil_iff.2 fun x hx => by simp [h x (sub hx)]
  induction ys generalizing xs with
  | nil => exact none xs (List.Subset.refl xs)
  | cons y ys ih =>
    have dropped := List.dropWhile_subset (l := xs) y.notAfter
    rw [inOrder, List.filter_append, none _ (List.takeWhile_subset _), List.nil_append,
      List.filter_cons, List.filter_cons, ih (fun x hx => h x (dropped hx))
        (fun zs sub => none zs (List.Subset.trans sub dropped))]

/-- What the merge yields, where its second list yields nothing, is what its first list does. -/
theorem Notice.filterMap_inOrder {α : Type} {f : Notice → Option α} (xs : List Notice)
    {ys : List Notice} (h : ∀ y ∈ ys, f y = none) :
    (inOrder xs ys).filterMap f = xs.filterMap f := by
  induction ys generalizing xs with
  | nil => rfl
  | cons y ys ih =>
    rw [List.forall_mem_cons] at h
    rw [inOrder, List.filterMap_append, List.filterMap_cons_none h.1, ih _ h.2,
      ← List.filterMap_append, List.takeWhile_append_dropWhile]

theorem Notice.inOrder_eq_nil {xs ys : List Notice} : inOrder xs ys = [] ↔ xs = [] ∧ ys = [] := by
  cases ys <;> simp [inOrder]

theorem Fault.span_error (f : Fault) (found : Token) : (f.error found).span = found.span := by
  cases f <;> rfl

theorem Event.map_error_notice? (e : Event) : e.notice?.map Notice.error = e.error? := by
  cases e with
  | stmt s => rfl
  | fault f found next => cases f <;> rfl

theorem Event.notice?_isFault {e : Event} {x : Notice} (h : e.notice? = some x) :
    x.error.illegal?.isNone := by
  cases e with
  | stmt s => cases h
  | fault f found next => cases f <;> cases h <;> rfl

/-- The faults of a source text are those that its events report, in their order. -/
theorem faults_ofSource (source : String) :
    (Parse.ofSource source).faults = (events source).filterMap Event.error? := by
  have illegal : ∀ x ∈ (IllegalChar.ofSource source).map Notice.ofIllegal,
      ((fun e : ParseError => e.illegal?.isNone) ∘ Notice.error) x = false := by
    intro x hx
    obtain ⟨e, -, rfl⟩ := List.mem_map.1 hx
    rfl
  have noticed : ∀ x ∈ (events source).filterMap Event.notice?,
      ((fun e : ParseError => e.illegal?.isNone) ∘ Notice.error) x = true := by
    intro x hx
    obtain ⟨e, -, he⟩ := List.mem_filterMap.1 hx
    exact e.notice?_isFault he
  rw [faults, ofSource, List.filter_map, Notice.filter_inOrder illegal,
    List.filter_eq_self.2 noticed, List.map_filterMap]
  simp only [Event.map_error_notice?]

/-- The illegal characters of a source text are all reported, each once and in their order. -/
theorem illegals_ofSource (source : String) :
    (Parse.ofSource source).illegals = IllegalChar.ofSource source := by
  have noticed : ∀ x ∈ (events source).filterMap Event.notice?,
      (ParseError.illegal? ∘ Notice.error) x = none := by
    intro x hx
    obtain ⟨e, -, he⟩ := List.mem_filterMap.1 hx
    exact Option.isNone_iff_eq_none.1 (e.notice?_isFault he)
  rw [illegals, ofSource, List.filterMap_map, Notice.filterMap_inOrder _ noticed,
    List.filterMap_map]
  simp [Function.comp_def, Notice.ofIllegal, ParseError.illegal?]

theorem errors_eq_nil_iff {source : String} :
    (Parse.ofSource source).errors = [] ↔
      IllegalChar.ofSource source = [] ∧ (Parse.ofSource source).faults = [] := by
  rw [faults_ofSource, ofSource, List.map_eq_nil_iff, Notice.inOrder_eq_nil, List.map_eq_nil_iff]
  refine and_congr_right fun _ => ?_
  rw [← List.map_eq_nil_iff (f := Notice.error), List.map_filterMap]
  simp only [Event.map_error_notice?]

end Parse

end MonkeyFrontEnd
