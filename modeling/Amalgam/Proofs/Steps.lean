import Mathlib

/-!
# Steps that may fail

A chain of steps succeeds when every step does.

Main results:

* `bind_eq_ok_iff`: how two steps succeed one after the other.
* `map_of_mapM_eq_ok`: a list of steps whose results are known gives the list of these results.
* `mapM_eq_ok_map`, `mapM_eq_error`: a list of steps succeeds when all of them do, and fails as the
  first of them that fails.
* `mem_of_mapM_eq_ok`: what a list of steps gives is what its steps give.
* `FailsOnly`: how a chain of steps can fail, from how each of them can.
-/

namespace Amalgam

variable {ε α β : Type}

theorem bind_eq_ok_iff {x : Except ε α} {f : α → Except ε β} {b : β} :
    (x >>= f) = .ok b ↔ ∃ a, x = .ok a ∧ f a = .ok b := by
  cases x with
  | error e => simp [bind, Except.bind]
  | ok a => simp [bind, Except.bind]

theorem map_eq_ok_iff {x : Except ε α} {f : α → β} {b : β} :
    x.map f = .ok b ↔ ∃ a, x = .ok a ∧ f a = b := by
  cases x <;> simp [Except.map]

theorem mapError_eq_ok_iff {ε' : Type} {x : Except ε' α} {f : ε' → ε} {a : α} :
    x.mapError f = .ok a ↔ x = .ok a := by
  cases x <;> simp [Except.mapError]

/-- If a step can only give what `g` says, then a list of steps gives what `g` says of each. -/
theorem map_of_mapM_eq_ok {f : α → Except ε β} {g : α → β} (hf : ∀ a b, f a = .ok b → b = g a)
    {as : List α} {bs : List β} (h : as.mapM f = .ok bs) : bs = as.map g := by
  induction as generalizing bs with
  | nil =>
    cases h
    rfl
  | cons a rest ih =>
    rw [List.mapM_cons, bind_eq_ok_iff] at h
    obtain ⟨b, hb, h⟩ := h
    rw [bind_eq_ok_iff] at h
    obtain ⟨more, hmore, h⟩ := h
    cases h
    rw [hf a b hb, ih hmore, List.map_cons]

theorem mapM_eq_ok_map {f : α → Except ε β} {g : α → β} {as : List α}
    (h : ∀ a ∈ as, f a = .ok (g a)) : as.mapM f = .ok (as.map g) := by
  induction as with
  | nil => rfl
  | cons a rest ih =>
    rw [List.mapM_cons, h a List.mem_cons_self, ih fun b hb => h b (List.mem_cons_of_mem a hb)]
    rfl

theorem mapM_congr {f g : α → Except ε β} {as : List α} (h : ∀ a ∈ as, f a = g a) :
    as.mapM f = as.mapM g := by
  induction as with
  | nil => rfl
  | cons a rest ih =>
    rw [List.mapM_cons, List.mapM_cons, h a List.mem_cons_self,
      ih fun b hb => h b (List.mem_cons_of_mem a hb)]

/-- A list of steps fails as the first of them that fails. -/
theorem mapM_eq_error {f : α → Except ε β} {before : List α} {a : α} {e : ε}
    (hbefore : ∀ b ∈ before, ∃ r, f b = .ok r) (ha : f a = .error e) (after : List α) :
    (before ++ a :: after).mapM f = .error e := by
  induction before with
  | nil =>
    rw [List.nil_append, List.mapM_cons, ha]
    rfl
  | cons b rest ih =>
    obtain ⟨r, hr⟩ := hbefore b List.mem_cons_self
    rw [List.cons_append, List.mapM_cons, hr, ih fun c hc => hbefore c (List.mem_cons_of_mem b hc)]
    rfl

/-- A list of steps succeeds when every one does, and gives what they give. -/
theorem mem_of_mapM_eq_ok {f : α → Except ε β} {as : List α} {bs : List β} (h : as.mapM f = .ok bs)
    {b : β} : b ∈ bs ↔ ∃ a ∈ as, f a = .ok b := by
  induction as generalizing bs with
  | nil =>
    cases h
    simp
  | cons a rest ih =>
    rw [List.mapM_cons, bind_eq_ok_iff] at h
    obtain ⟨first, hfirst, h⟩ := h
    rw [bind_eq_ok_iff] at h
    obtain ⟨more, hmore, h⟩ := h
    cases h
    simp [ih hmore, hfirst, eq_comm]

theorem exists_mapM_eq_ok_iff {f : α → Except ε β} {as : List α} :
    (∃ bs, as.mapM f = .ok bs) ↔ ∀ a ∈ as, ∃ b, f a = .ok b := by
  induction as with
  | nil => exact ⟨fun _ => by simp, fun _ => ⟨[], rfl⟩⟩
  | cons a rest ih =>
    rw [List.forall_mem_cons, ← ih, List.mapM_cons]
    simp only [bind_eq_ok_iff]
    constructor
    · rintro ⟨_, b, hb, bs, hbs, -⟩
      exact ⟨⟨b, hb⟩, bs, hbs⟩
    · rintro ⟨⟨b, hb⟩, bs, hbs⟩
      exact ⟨b :: bs, b, hb, bs, hbs, rfl⟩

/-! ## Ways to fail -/

/-- Whether a step fails in no other way than those given. -/
def FailsOnly (ways : ε → Prop) (x : Except ε α) : Prop := ∀ e, x = .error e → ways e

section FailsOnly

variable {ways : ε → Prop}

theorem FailsOnly.ok (a : α) : FailsOnly ways (.ok a : Except ε α) := by
  intro e h
  cases h

theorem FailsOnly.error {e : ε} (h : ways e) : FailsOnly ways (.error e : Except ε α) := by
  intro e' h'
  cases h'
  exact h

theorem FailsOnly.bind {x : Except ε α} {f : α → Except ε β} (hx : FailsOnly ways x)
    (hf : ∀ a, FailsOnly ways (f a)) : FailsOnly ways (x >>= f) := by
  cases x with
  | error e => exact .error (hx e rfl)
  | ok a => exact hf a

theorem FailsOnly.map {x : Except ε α} (hx : FailsOnly ways x) (f : α → β) :
    FailsOnly ways (x.map f) := by
  cases x with
  | error e => exact .error (hx e rfl)
  | ok a => exact .ok (f a)

theorem FailsOnly.mapError {ε' : Type} {x : Except ε' α} {f : ε' → ε} (h : ∀ e, ways (f e)) :
    FailsOnly ways (x.mapError f) := by
  cases x with
  | error e => exact .error (h e)
  | ok a => exact .ok a

theorem FailsOnly.mapM {f : α → Except ε β} (hf : ∀ a, FailsOnly ways (f a)) (as : List α) :
    FailsOnly ways (as.mapM f) := by
  induction as with
  | nil => exact .ok []
  | cons a rest ih =>
    rw [List.mapM_cons]
    exact (hf a).bind fun b => ih.bind fun bs => .ok (b :: bs)

theorem FailsOnly.foldlM {f : β → α → Except ε β} (hf : ∀ b a, FailsOnly ways (f b a)) (as : List α)
    (b : β) : FailsOnly ways (as.foldlM f b) := by
  induction as generalizing b with
  | nil => exact .ok b
  | cons a rest ih =>
    rw [List.foldlM_cons]
    exact (hf b a).bind ih

end FailsOnly

end Amalgam
