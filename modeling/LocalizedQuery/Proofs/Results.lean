/-!
# Steps that may fail

A sequence of steps gives a result exactly if every step does. These lemmas take such a sequence
apart, so that no proof has to look at how it is run.
-/

namespace LocalizedQuery

variable {ε α β : Type}

theorem bind_eq_ok {x : Except ε α} {f : α → Except ε β} {b : β} :
    x >>= f = .ok b ↔ ∃ a, x = .ok a ∧ f a = .ok b := by
  cases x with
  | error e => simp [bind, Except.bind]
  | ok a => simp [bind, Except.bind]

theorem map_eq_ok {x : Except ε α} {f : α → β} {b : β} :
    x.map f = .ok b ↔ ∃ a, x = .ok a ∧ f a = b := by
  cases x with
  | error e => simp [Except.map]
  | ok a => simp [Except.map]

theorem mapError_eq_ok {δ : Type} {x : Except ε α} {f : ε → δ} {a : α} :
    x.mapError f = .ok a ↔ x = .ok a := by
  cases x with
  | error e =>
    constructor
    · intro h
      cases h
    · intro h
      cases h
  | ok b =>
    constructor
    · intro h
      rw [← Except.ok.inj h]
    · intro h
      rw [← Except.ok.inj h]
      rfl

theorem pure_eq_ok {a b : α} : (pure a : Except ε α) = .ok b ↔ a = b := by
  simp [pure, Except.pure]

/-! ## Success alone -/

/-- Whether a step succeeds, and its error if it does not. -/
def verdict (x : Except ε α) : Except ε Unit := x.map fun _ => ()

@[simp] theorem verdict_ok (a : α) : verdict (.ok a : Except ε α) = .ok () := rfl

@[simp] theorem verdict_error (e : ε) : verdict (.error e : Except ε α) = .error e := rfl

theorem verdict_eq_ok {x : Except ε α} : verdict x = .ok () ↔ ∃ a, x = .ok a := by
  cases x with
  | error e => simp
  | ok a => simp

theorem verdict_eq_error {x : Except ε α} {e : ε} : verdict x = .error e ↔ x = .error e := by
  cases x with
  | error _ => simp
  | ok _ => simp

theorem verdict_bind (x : Except ε α) (f : α → Except ε β) :
    verdict (x >>= f) = x >>= fun a => verdict (f a) := by
  cases x <;> rfl

/-- Steps that all go on alike, whatever they give. -/
theorem bind_of_forall_eq {x : Except ε α} {f : α → Except ε β} {y : Except ε β}
    (h : ∀ a, f a = y) : x >>= f = verdict x >>= fun _ => y := by
  cases x with
  | error e => rfl
  | ok a => exact h a

@[simp] theorem verdict_unit (x : Except ε Unit) : verdict x = x := by
  cases x <;> rfl

theorem verdict_bind_pure (x : Except ε α) (f : α → β) :
    verdict (x >>= fun a => pure (f a)) = verdict x := by
  cases x <;> rfl

theorem verdict_bind_both {γ : Type} (x : Except ε α) (y : Except ε β) (f : α → β → γ) :
    verdict (x >>= fun a => y >>= fun b => pure (f a b)) = verdict x >>= fun _ => verdict y := by
  cases x with
  | error e => rfl
  | ok a => exact verdict_bind_pure y (f a)

/-! ## Two runs -/

/-- Two steps fail alike, or give results that are related. -/
inductive FareAlike (R : α → β → Prop) : Except ε α → Except ε β → Prop
  | ok {a : α} {b : β} : R a b → FareAlike R (.ok a) (.ok b)
  | error {e : ε} : FareAlike R (.error e) (.error e)

/-- What fails alike fares alike, if the results are related. -/
theorem FareAlike.of_verdict {R : α → β → Prop} {x : Except ε α} {y : Except ε β}
    (hverdict : verdict x = verdict y) (hok : ∀ a b, x = .ok a → y = .ok b → R a b) :
    FareAlike R x y := by
  cases x with
  | error e =>
    rw [verdict_error, eq_comm, verdict_eq_error] at hverdict
    rw [hverdict]
    exact .error
  | ok a =>
    rw [verdict_ok, eq_comm, verdict_eq_ok] at hverdict
    obtain ⟨b, rfl⟩ := hverdict
    exact .ok (hok a b rfl rfl)

/-- What fares alike both ways is the same, if its results are. -/
theorem FareAlike.antisymm {R : α → α → Prop} {x y : Except ε α}
    (hanti : ∀ a b, R a b → R b a → a = b) (h : FareAlike R x y) (h' : FareAlike R y x) :
    x = y := by
  cases h with
  | error => rfl
  | ok hab =>
    cases h' with
    | ok hba => rw [hanti _ _ hab hba]

/-! ## Sequences of steps -/

theorem forM_cons (f : α → Except ε Unit) (x : α) (xs : List α) :
    (x :: xs).forM f = f x >>= fun _ => xs.forM f := rfl

theorem forM_singleton (f : α → Except ε Unit) (x : α) : [x].forM f = f x := by
  change (f x >>= fun _ => .ok ()) = f x
  cases f x <;> rfl

theorem forM_pair (f : α → Except ε Unit) (x y : α) : [x, y].forM f = f x >>= fun _ => f y := by
  rw [← forM_singleton f y]
  rfl

/-- A fold of steps that all succeed succeeds. -/
theorem foldlM_ok {γ : Type} {f : γ → α → Except ε γ} {xs : List α}
    (h : ∀ x ∈ xs, ∀ acc, ∃ acc', f acc x = .ok acc') (acc : γ) :
    ∃ result, xs.foldlM f acc = .ok result := by
  induction xs generalizing acc with
  | nil => exact ⟨acc, rfl⟩
  | cons x rest ih =>
    obtain ⟨acc', hacc⟩ := h x (List.mem_cons_self ..) acc
    obtain ⟨result, hresult⟩ := ih (fun y hy => h y (List.mem_cons_of_mem _ hy)) acc'
    exact ⟨result, by rw [List.foldlM_cons, hacc]; exact hresult⟩

/-- What every step of a fold preserves, indexed by what has been folded already. -/
theorem foldlM_invariant {γ : Type} {f : γ → α → Except ε γ} {P : List α → γ → Prop} {xs : List α}
    (hstep : ∀ done, ∀ x ∈ xs, ∀ acc acc', P done acc → f acc x = .ok acc' → P (done ++ [x]) acc')
    {done : List α} {acc result : γ} (hacc : P done acc) (h : xs.foldlM f acc = .ok result) :
    P (done ++ xs) result := by
  induction xs generalizing done acc with
  | nil =>
    rw [List.foldlM_nil, pure_eq_ok] at h
    rwa [List.append_nil, ← h]
  | cons x rest ih =>
    rw [List.foldlM_cons, bind_eq_ok] at h
    obtain ⟨acc', hx, h⟩ := h
    have hnext := hstep done x (List.mem_cons_self ..) acc acc' hacc hx
    have hrest := ih (fun done y hy => hstep done y (List.mem_cons_of_mem _ hy)) hnext h
    rwa [List.append_assoc] at hrest

/-- What a list of steps gives, without order. -/
theorem mem_of_mapM_eq_ok {f : α → Except ε β} {xs : List α} {ys : List β}
    (h : xs.mapM f = .ok ys) {y : β} : y ∈ ys ↔ ∃ x ∈ xs, f x = .ok y := by
  induction xs generalizing ys with
  | nil =>
    rw [List.mapM_nil, pure_eq_ok] at h
    simp [← h]
  | cons x rest ih =>
    rw [List.mapM_cons, bind_eq_ok] at h
    obtain ⟨first, hfirst, h⟩ := h
    obtain ⟨others, hothers, h⟩ := bind_eq_ok.mp h
    rw [pure_eq_ok] at h
    simp [← h, ih hothers, hfirst, eq_comm]

theorem ok_of_mapM_eq_ok {f : α → Except ε β} {xs : List α} {ys : List β}
    (h : xs.mapM f = .ok ys) {x : α} (hx : x ∈ xs) : ∃ y, f x = .ok y := by
  induction xs generalizing ys with
  | nil => simp at hx
  | cons first rest ih =>
    rw [List.mapM_cons, bind_eq_ok] at h
    obtain ⟨y, hy, h⟩ := h
    obtain ⟨others, hothers, -⟩ := bind_eq_ok.mp h
    rcases List.mem_cons.mp hx with rfl | hx
    · exact ⟨y, hy⟩
    · exact ih hothers hx

theorem mapM_ok {f : α → Except ε β} {xs : List α} (h : ∀ x ∈ xs, ∃ y, f x = .ok y) :
    ∃ ys, xs.mapM f = .ok ys := by
  induction xs with
  | nil => exact ⟨[], rfl⟩
  | cons x rest ih =>
    obtain ⟨y, hy⟩ := h x (List.mem_cons_self ..)
    obtain ⟨ys, hys⟩ := ih fun x hx => h x (List.mem_cons_of_mem _ hx)
    exact ⟨y :: ys, by rw [List.mapM_cons, hy, hys]; rfl⟩

/-- Steps of which it is known what each gives. -/
theorem mapM_eq_ok {f : α → Except ε β} {g : α → β} {xs : List α} (h : ∀ x ∈ xs, f x = .ok (g x)) :
    xs.mapM f = .ok (xs.map g) := by
  induction xs with
  | nil => rfl
  | cons x rest ih =>
    rw [List.mapM_cons, h x List.mem_cons_self, ih fun y hy => h y (List.mem_cons_of_mem _ hy)]
    rfl

/-- Steps that tell what they were made for give it back in order. -/
theorem map_of_mapM_eq_ok {f : α → Except ε β} {source : β → α} {xs : List α} {ys : List β}
    (hsource : ∀ x y, f x = .ok y → source y = x) (h : xs.mapM f = .ok ys) :
    ys.map source = xs := by
  induction xs generalizing ys with
  | nil =>
    rw [List.mapM_nil, pure_eq_ok] at h
    rw [← h, List.map_nil]
  | cons x rest ih =>
    rw [List.mapM_cons, bind_eq_ok] at h
    obtain ⟨y, hy, h⟩ := h
    obtain ⟨others, hothers, h⟩ := bind_eq_ok.mp h
    rw [pure_eq_ok] at h
    rw [← h, List.map_cons, hsource x y hy, ih hothers]

/-- Where every step changes its result in one way, so does the list of steps. -/
theorem mapM_map_result {γ : Type} {f : α → Except ε γ} {g : α → Except ε β} {change : β → γ}
    (h : ∀ x, f x = (g x).map change) (xs : List α) :
    xs.mapM f = (xs.mapM g).map (List.map change) := by
  induction xs with
  | nil => rfl
  | cons x rest ih =>
    rw [List.mapM_cons, List.mapM_cons, h x, ih]
    cases g x with
    | error e => rfl
    | ok y => cases rest.mapM g <;> rfl

end LocalizedQuery
