/-!
# Computations that may fail

What it means for a sequence of such computations to succeed.
-/

namespace ContentTypes

variable {ε α β : Type}

instance instDecidableEqOutcome [DecidableEq ε] [DecidableEq α] : DecidableEq (Except ε α)
  | .ok a, .ok b => decidable_of_iff (a = b) (by simp)
  | .error e, .error f => decidable_of_iff (e = f) (by simp)
  | .ok _, .error _ | .error _, .ok _ => isFalse (by simp)

theorem bind_eq_ok {x : Except ε α} {f : α → Except ε β} {b : β} :
    x >>= f = .ok b ↔ ∃ a, x = .ok a ∧ f a = .ok b := by
  cases x <;> simp [bind, Except.bind]

theorem ok_bind {f : α → Except ε β} {a : α} : Except.ok a >>= f = f a := rfl

@[simp] theorem pure_eq_ok {a b : α} : (pure a : Except ε α) = .ok b ↔ a = b := by
  simp [pure, Except.pure]

theorem map_eq_ok {x : Except ε α} {f : α → β} {b : β} :
    f <$> x = .ok b ↔ ∃ a, x = .ok a ∧ f a = b := by
  cases x <;> simp [Functor.map, Except.map]

theorem mapError_eq_ok {ε' : Type} {x : Except ε α} {f : ε → ε'} {a : α} :
    x.mapError f = .ok a ↔ x = .ok a := by
  cases x with
  | error fault => exact ⟨fun h => (nomatch h), fun h => (nomatch h)⟩
  | ok b =>
    have hb : (Except.ok b).mapError f = .ok b := rfl
    rw [hb, Except.ok.injEq, Except.ok.injEq]

theorem toOption_eq_some {x : Except ε α} {a : α} : x.toOption = some a ↔ x = .ok a := by
  cases x <;> simp [Except.toOption]

theorem mapM_eq_ok_of_forall {f : α → Except ε β} {g : α → β} {items : List α}
    (h : ∀ item ∈ items, f item = .ok (g item)) : items.mapM f = .ok (items.map g) := by
  induction items with
  | nil => rfl
  | cons item rest ih =>
    have hi := h item List.mem_cons_self
    have hr := ih fun other hm => h other (List.mem_cons_of_mem _ hm)
    simp only [List.mapM_cons, hi, hr, List.map_cons]
    rfl

theorem exists_mapM_eq_ok {f : α → Except ε β} {P : β → Prop} {items : List α}
    (h : ∀ item ∈ items, ∃ result, f item = .ok result ∧ P result) :
    ∃ results, items.mapM f = .ok results ∧ ∀ result ∈ results, P result := by
  induction items with
  | nil => exact ⟨[], rfl, fun _ hm => nomatch hm⟩
  | cons item rest ih =>
    obtain ⟨result, hitem, hresult⟩ := h item List.mem_cons_self
    obtain ⟨results, hrest, hresults⟩ := ih fun other hm => h other (List.mem_cons_of_mem _ hm)
    refine ⟨result :: results, ?_, List.forall_mem_cons.2 ⟨hresult, hresults⟩⟩
    rw [List.mapM_cons, hitem, hrest]
    rfl

theorem mapM_cons_eq_ok {f : α → Except ε β} {item : α} {rest : List α} {results : List β} :
    (item :: rest).mapM f = .ok results ↔ ∃ result others, f item = .ok result ∧
      rest.mapM f = .ok others ∧ results = result :: others := by
  simp only [List.mapM_cons, bind_eq_ok, pure_eq_ok]
  constructor
  · rintro ⟨result, hitem, others, hrest, rfl⟩
    exact ⟨result, others, hitem, hrest, rfl⟩
  · rintro ⟨result, others, hitem, hrest, rfl⟩
    exact ⟨result, hitem, others, hrest, rfl⟩

theorem exists_map_eq_some {x : Option α} {f : α → β} :
    (∃ b, x.map f = some b) ↔ ∃ a, x = some a := by
  cases x <;> simp

theorem mapM_cons_eq_some {f : α → Option β} {item : α} {rest : List α} {results : List β} :
    (item :: rest).mapM f = some results ↔ ∃ result others, f item = some result ∧
      rest.mapM f = some others ∧ results = result :: others := by
  simp only [List.mapM_cons, Option.bind_eq_bind, Option.bind_eq_some_iff, Option.pure_def,
    Option.some.injEq]
  constructor
  · rintro ⟨result, hitem, others, hrest, rfl⟩
    exact ⟨result, others, hitem, hrest, rfl⟩
  · rintro ⟨result, others, hitem, hrest, rfl⟩
    exact ⟨result, hitem, others, hrest, rfl⟩

theorem mapM_eq_error {f : α → Except ε β} {before after : List α} {item : α} {error : ε}
    (hbefore : ∀ other ∈ before, ∃ result, f other = .ok result) (hitem : f item = .error error) :
    (before ++ item :: after).mapM f = .error error := by
  induction before with
  | nil =>
    rw [List.nil_append, List.mapM_cons, hitem]
    rfl
  | cons first before ih =>
    obtain ⟨⟨result, hfirst⟩, hbefore⟩ := List.forall_mem_cons.1 hbefore
    rw [List.cons_append, List.mapM_cons, hfirst, ih hbefore]
    rfl

theorem mem_iff_of_mapM_eq_ok {f : α → Except ε β} {items : List α} {results : List β} {result : β}
    (h : items.mapM f = .ok results) : result ∈ results ↔ ∃ item ∈ items, f item = .ok result := by
  induction items generalizing results with
  | nil =>
    cases h
    simp
  | cons first rest ih =>
    obtain ⟨head, others, hfirst, hrest, rfl⟩ := mapM_cons_eq_ok.1 h
    simp [ih hrest, hfirst, eq_comm (a := result)]

theorem exists_of_mapM_eq_ok {f : α → Except ε β} {items : List α} {results : List β}
    (h : items.mapM f = .ok results) :
    ∀ item ∈ items, ∃ result ∈ results, f item = .ok result := by
  induction items generalizing results with
  | nil => simp
  | cons first rest ih =>
    obtain ⟨result, others, hfirst, hrest, rfl⟩ := mapM_cons_eq_ok.1 h
    intro item hm
    rcases List.mem_cons.1 hm with rfl | hm
    · exact ⟨result, List.mem_cons_self, hfirst⟩
    · obtain ⟨found, hfound, hitem⟩ := ih hrest item hm
      exact ⟨found, List.mem_cons_of_mem _ hfound, hitem⟩

end ContentTypes
