import PlatterMachine.Action

/-!
# Laws of actions

What the combinators of `Action` do at a state. An action that is composed of others is taken apart
with `bind_done`, `bind_failed` and `bind_crashed`, one for each way its first part can end.
-/

namespace PlatterMachine

namespace Action

variable {σ τ α β : Type}

@[simp] theorem pure_apply (a : α) (s : σ) : (pure a : Action σ α) s = (.done a, s) := rfl

@[simp] theorem read_apply (f : σ → α) (s : σ) : Action.read f s = (.done (f s), s) := rfl

@[simp] theorem modify_apply (f : σ → σ) (s : σ) : Action.modify f s = (.done (), f s) := rfl

@[simp] theorem fail_apply (fault : Fault) (s : σ) :
    (Action.fail fault : Action σ α) s = (.failed fault, s) := rfl

@[simp] theorem crash_apply (crash : Crash) (s : σ) :
    (Action.crash crash : Action σ α) s = (.crashed crash, s) := rfl

@[simp] theorem ofOutcome_apply (o : Outcome α) (s : σ) : Action.ofOutcome o s = (o, s) := rfl

theorem bind_done {x : Action σ α} {f : α → Action σ β} {s t : σ} {a : α}
    (h : x s = (.done a, t)) : (x >>= f) s = f a t := by
  change Action.bind x f s = f a t
  rw [Action.bind, h]

theorem bind_failed {x : Action σ α} {f : α → Action σ β} {s t : σ} {fault : Fault}
    (h : x s = (.failed fault, t)) : (x >>= f) s = (.failed fault, t) := by
  change Action.bind x f s = _
  rw [Action.bind, h]

theorem bind_crashed {x : Action σ α} {f : α → Action σ β} {s t : σ} {crash : Crash}
    (h : x s = (.crashed crash, t)) : (x >>= f) s = (.crashed crash, t) := by
  change Action.bind x f s = _
  rw [Action.bind, h]

/-- If all that the parts of an action change is within a transitive relation, so is what it changes
as a whole. -/
theorem rel_snd_bind {r : σ → σ → Prop} (htrans : ∀ {s t u}, r s t → r t u → r s u)
    {x : Action σ α} {f : α → Action σ β} (hx : ∀ s, r s (x s).2) (hf : ∀ a s, r s (f a s).2)
    (s : σ) : r s ((x >>= f) s).2 := by
  have hfirst := hx s
  rcases h : x s with ⟨a | fault | crash, t⟩ <;> rw [h] at hfirst
  · rw [bind_done h]
    exact htrans hfirst (hf a t)
  · rw [bind_failed h]
    exact hfirst
  · rw [bind_crashed h]
    exact hfirst

/-- If from related states the parts of an action end alike and in related states, so does the
whole. -/
theorem rel_bind {r : σ → σ → Prop} {x : Action σ α} {f : α → Action σ β} {s s' : σ}
    (hx : (x s).1 = (x s').1 ∧ r (x s).2 (x s').2)
    (hf : ∀ a t t', r t t' → (f a t).1 = (f a t').1 ∧ r (f a t).2 (f a t').2) :
    ((x >>= f) s).1 = ((x >>= f) s').1 ∧ r ((x >>= f) s).2 ((x >>= f) s').2 := by
  obtain ⟨hfst, hsnd⟩ := hx
  rcases h : x s with ⟨a | fault | crash, t⟩ <;> rcases h' : x s' with ⟨o', t'⟩ <;>
    rw [h, h'] at hfst hsnd <;> cases hfst
  · rw [bind_done h, bind_done h']
    exact hf a t t' hsnd
  · rw [bind_failed h, bind_failed h']
    exact ⟨rfl, hsnd⟩
  · rw [bind_crashed h, bind_crashed h']
    exact ⟨rfl, hsnd⟩

@[simp] theorem pure_bind_eq (a : α) (f : α → Action σ β) : (pure a >>= f) = f a := rfl

@[simp] theorem read_bind_apply (g : σ → α) (f : α → Action σ β) (s : σ) :
    (Action.read g >>= f) s = f (g s) s := rfl

@[simp] theorem modify_bind_apply (g : σ → σ) (f : Unit → Action σ β) (s : σ) :
    (Action.modify g >>= f) s = f () (g s) := rfl

@[simp] theorem fail_bind_apply (fault : Fault) (f : α → Action σ β) (s : σ) :
    ((Action.fail fault : Action σ α) >>= f) s = (.failed fault, s) := rfl

@[simp] theorem crash_bind_apply (crash : Crash) (f : α → Action σ β) (s : σ) :
    ((Action.crash crash : Action σ α) >>= f) s = (.crashed crash, s) := rfl

theorem bind_pure_unit (x : Action σ Unit) : (x >>= fun _ => pure ()) = x := by
  funext s
  change Action.bind x (fun _ => Action.pure ()) s = x s
  rcases h : x s with ⟨_ | _ | _, t⟩ <;> simp only [Action.bind, Action.pure, h]

/-- From `s`, the action ends in `post` when it is done, and in `broken` when it fails or
crashes. -/
def wp (x : Action σ α) (post : α → σ → Prop) (broken : σ → Prop) (s : σ) : Prop :=
  match x s with
  | (.done a, t) => post a t
  | (.failed _, t) => broken t
  | (.crashed _, t) => broken t

variable {x : Action σ α} {f : α → Action σ β} {s : σ}
variable {post post' : α → σ → Prop} {postβ : β → σ → Prop} {broken broken' : σ → Prop}

@[simp] theorem wp_pure (a : α) : (pure a : Action σ α).wp post broken s ↔ post a s := Iff.rfl

@[simp] theorem wp_read (g : σ → α) : (Action.read g).wp post broken s ↔ post (g s) s := Iff.rfl

@[simp] theorem wp_modify (g : σ → σ) {post : Unit → σ → Prop} :
    (Action.modify g).wp post broken s ↔ post () (g s) := Iff.rfl

@[simp] theorem wp_fail (fault : Fault) :
    (Action.fail fault : Action σ α).wp post broken s ↔ broken s := Iff.rfl

@[simp] theorem wp_crash (crash : Crash) :
    (Action.crash crash : Action σ α).wp post broken s ↔ broken s := Iff.rfl

@[simp] theorem wp_ofExcept_ok (a : α) :
    (Action.ofExcept (.ok a)).wp post broken s ↔ post a s := Iff.rfl

@[simp] theorem wp_ofExcept_error (fault : Fault) :
    (Action.ofExcept (.error fault)).wp post broken s ↔ broken s := Iff.rfl

@[simp] theorem wp_bind :
    (x >>= f).wp postβ broken s ↔ x.wp (fun a t => (f a).wp postβ broken t) broken s := by
  change (Action.bind x f).wp postβ broken s ↔ _
  rcases h : x s with ⟨_ | _ | _, t⟩ <;> simp only [wp, Action.bind, h]

@[simp] theorem wp_during (activity : String) :
    (x.during activity).wp post broken s ↔ x.wp post broken s := by
  rcases h : x s with ⟨_ | _ | _, t⟩ <;> simp only [wp, Action.during, Outcome.during, h]

@[simp] theorem wp_within {τ : Type} (get : τ → σ) (set : σ → τ → τ) {t : τ}
    {post : α → τ → Prop} {broken : τ → Prop} :
    (x.within get set).wp post broken t ↔
      x.wp (fun a s => post a (set s t)) (fun s => broken (set s t)) (get t) := by
  rcases h : x (get t) with ⟨_ | _ | _, s⟩ <;> simp only [wp, Action.within, h]

theorem wp.cleaningUp {cleanup : Action σ Unit}
    (h : x.wp post (fun t => broken t ∧ cleanup.wp (fun _ => broken) broken t) s) :
    (x.cleaningUp cleanup).wp post broken s := by
  rcases hx : x s with ⟨_ | _ | _, t⟩ <;> simp only [wp, hx] at h
  · simpa only [wp, Action.cleaningUp, hx] using h
  · rcases hc : cleanup t with ⟨_ | _ | _, u⟩ <;>
      simpa only [wp, Action.cleaningUp, Action.bind, Action.fail, hx, hc] using h.2
  · simpa only [wp, Action.cleaningUp, hx] using h.1

theorem wp.imp (h : x.wp post broken s) (hpost : ∀ a t, x s = (.done a, t) → post a t → post' a t)
    (hbroken : ∀ t, broken t → broken' t) : x.wp post' broken' s := by
  rcases hx : x s with ⟨_ | _ | _, t⟩ <;> simp only [wp, hx] at h ⊢
  · exact hpost _ _ hx h
  · exact hbroken _ h
  · exact hbroken _ h

theorem wp.and (h : x.wp post broken s) (h' : x.wp post' broken' s) :
    x.wp (fun a t => post a t ∧ post' a t) (fun t => broken t ∧ broken' t) s := by
  rcases hx : x s with ⟨_ | _ | _, t⟩ <;> simp only [wp, hx] at h h' ⊢ <;> exact ⟨h, h'⟩

theorem wp_of_forall (hpost : ∀ a t, x s = (.done a, t) → post a t) (hbroken : ∀ t, broken t) :
    x.wp post broken s := by
  rcases hx : x s with ⟨_ | _ | _, t⟩ <;> simp only [wp, hx]
  · exact hpost _ _ hx
  · exact hbroken _
  · exact hbroken _

/-- What holds however the action ends. -/
theorem wp.snd {inv : σ → Prop} (h : x.wp (fun _ => inv) inv s) : inv (x s).2 := by
  rcases hx : x s with ⟨_ | _ | _, t⟩ <;> simpa only [wp, hx] using h

theorem wp.of_done (h : x.wp post broken s) {a : α} (hx : (x s).1 = .done a) : post a (x s).2 := by
  rcases hs : x s with ⟨_ | _ | _, t⟩ <;> rw [hs] at hx <;> cases hx
  simpa only [wp, hs] using h

theorem wp.of_ne_done (h : x.wp post broken s) {o : Outcome α} {t : σ} (hx : x s = (o, t))
    (hne : ∀ a, o ≠ .done a) : broken t := by
  rw [wp, hx] at h
  cases o with
  | done a => exact absurd rfl (hne a)
  | failed fault => exact h
  | crashed crash => exact h

/-- An action that cannot break is done. -/
theorem wp.exists_done (h : x.wp post (fun _ => False) s) :
    ∃ a t, x s = (.done a, t) ∧ post a t := by
  rcases hx : x s with ⟨_ | _ | _, t⟩ <;> simp only [wp, hx] at h
  exact ⟨_, _, rfl, h⟩

/-- From `s`, the action ends in `post`, `failed` or `crashed`, according to how it ends. -/
def ends (x : Action σ α) (post : α → σ → Prop) (failed : Fault → σ → Prop)
    (crashed : Crash → σ → Prop) (s : σ) : Prop :=
  match x s with
  | (.done a, t) => post a t
  | (.failed fault, t) => failed fault t
  | (.crashed crash, t) => crashed crash t

variable {failed failed' : Fault → σ → Prop} {crashed crashed' : Crash → σ → Prop}

theorem ends_of_done {a : α} {t : σ} (h : x s = (.done a, t)) :
    x.ends post failed crashed s ↔ post a t := by
  simp only [ends, h]

theorem ends_of_crashed {crash : Crash} {t : σ} (h : x s = (.crashed crash, t)) :
    x.ends post failed crashed s ↔ crashed crash t := by
  simp only [ends, h]

theorem ends_bind : (x >>= f).ends postβ failed crashed s ↔
    x.ends (fun a t => (f a).ends postβ failed crashed t) failed crashed s := by
  change (Action.bind x f).ends postβ failed crashed s ↔ _
  rcases h : x s with ⟨_ | _ | _, t⟩ <;> simp only [ends, Action.bind, h]

theorem ends_within {τ : Type} (get : τ → σ) (set : σ → τ → τ) {t : τ} {post : α → τ → Prop}
    {failed : Fault → τ → Prop} {crashed : Crash → τ → Prop} :
    (x.within get set).ends post failed crashed t ↔
      x.ends (fun a s => post a (set s t)) (fun fault s => failed fault (set s t))
        (fun crash s => crashed crash (set s t)) (get t) := by
  rcases h : x (get t) with ⟨_ | _ | _, s⟩ <;> simp only [ends, Action.within, h]

theorem ends_during (activity : String) {broken : σ → Prop} :
    (x.during activity).ends post (fun _ => broken) crashed s ↔
      x.ends post (fun _ => broken) crashed s := by
  rcases h : x s with ⟨_ | _ | _, t⟩ <;> simp only [ends, Action.during, Outcome.during, h]

theorem ends.imp (h : x.ends post failed crashed s)
    (hpost : ∀ a t, x s = (.done a, t) → post a t → post' a t)
    (hfailed : ∀ fault t, failed fault t → failed' fault t)
    (hcrashed : ∀ crash t, crashed crash t → crashed' crash t) :
    x.ends post' failed' crashed' s := by
  rcases hx : x s with ⟨_ | _ | _, t⟩ <;> simp only [ends, hx] at h ⊢
  · exact hpost _ _ hx h
  · exact hfailed _ _ h
  · exact hcrashed _ _ h

/-- Cleaning up is left to do after a failure only. -/
theorem ends.cleaningUp {cleanup : Action σ Unit}
    (h : x.ends post
      (fun fault t => cleanup.ends (fun _ => failed fault) failed crashed t) crashed s) :
    (x.cleaningUp cleanup).ends post failed crashed s := by
  rcases hx : x s with ⟨_ | _ | _, t⟩ <;> simp only [ends, hx] at h
  · simpa only [ends, Action.cleaningUp, hx] using h
  · rcases hc : cleanup t with ⟨_ | _ | _, u⟩ <;>
      simpa only [ends, Action.cleaningUp, Action.bind, Action.fail, hx, hc] using h
  · simpa only [ends, Action.cleaningUp, hx] using h

theorem ends.done_or_failed {broken : σ → Prop}
    (h : x.ends post (fun _ => broken) (fun _ _ => False) s) :
    (∃ a, (x s).1 = .done a ∧ post a (x s).2) ∨
      ∃ fault, (x s).1 = .failed fault ∧ broken (x s).2 := by
  rcases hx : x s with ⟨_ | _ | _, t⟩ <;> simp only [ends, hx] at h
  · exact Or.inl ⟨_, rfl, h⟩
  · exact Or.inr ⟨_, rfl, h⟩

/-- What holds however the action ends holds in particular when it has not crashed. -/
theorem wp.ends {inv : σ → Prop} (h : x.wp (fun _ => inv) inv s) :
    x.ends (fun _ => inv) (fun _ => inv) (fun _ _ => True) s := by
  rcases hx : x s with ⟨_ | _ | _, t⟩ <;> simp only [wp, hx] at h <;> simp only [Action.ends, hx]
  · exact h
  · exact h

/-- For what does not crash, only failures are left to tell from success. -/
theorem ends.wp (h : x.ends post failed (fun _ _ => False) s)
    (hpost : ∀ a t, x s = (.done a, t) → post a t → post' a t)
    (hfailed : ∀ fault t, failed fault t → broken t) : x.wp post' broken s := by
  rcases hx : x s with ⟨_ | _ | _, t⟩ <;> simp only [ends, hx] at h <;> simp only [Action.wp, hx]
  · exact hpost _ _ hx h
  · exact hfailed _ _ h

end Action

end PlatterMachine
