import PlatterMachine.Proofs.Arena.Traffic

/-!
# Blocks go back to the source

Clients may release whatever they like: what they hold, a part of it, what they have released
before, or memory from elsewhere. The free lists then say little, but the books of blocks and large
regions stay right: whatever came from the source is kept or has been passed back, once. Closing
passes back all that is kept, and leaves an arena that knows of nothing that went before.
-/

namespace PlatterMachine

/-- The source as it is after so many requests and returns. -/
def BlockSource.onward (s : BlockSource) (requests returns : Nat) : BlockSource :=
  ⟨fun k => s.request (requests + k), fun k => s.refusal (returns + k)⟩

theorem BlockSource.onward_onward (s : BlockSource) (i j k l : Nat) :
    (s.onward i j).onward k l = s.onward (i + k) (j + l) := by
  simp only [onward, Nat.add_assoc]

def Buffer.extent (b : Buffer) : Nat × Nat × Nat := (b.region, b.offset, b.capacity)

namespace Arena

/-- What clients can ask of an arena. Any buffer may be released, and memory may come about that is
not from the source. -/
inductive Op where
  | alloc (n : Int) (zero : Bool)
  | release (b : Buffer)
  | foreign (elems : Nat)
  | close

inductive Reply where
  | lent (outcome : Outcome Buffer)
  | released (outcome : Outcome Unit)
  | closed (fault : Option Fault)

def Op.Fits (α : Type) [Element α] : Op → Prop
  | alloc n _ => n * Element.bytes α < signedLimit
  | _ => True

instance (α : Type) [Element α] : DecidablePred (Op.Fits α)
  | .alloc n _ => inferInstanceAs (Decidable (n * Element.bytes α < signedLimit))
  | .release _ | .foreign _ | .close => inferInstanceAs (Decidable True)

variable {α : Type} [Element α] {a a' : Arena α} {b : Buffer} {op : Op} {ops : List Op}

def perform (a : Arena α) : Op → Reply × Arena α
  | .alloc n zero => (.lent (alloc n zero a).1, (alloc n zero a).2)
  | .release b => (.released (release b a).1, (release b a).2)
  | .foreign elems => (.lent (foreign elems a).1, (foreign elems a).2)
  | .close => (.closed a.close.1, a.close.2)

def performAll (a : Arena α) (ops : List Op) : Arena α :=
  ops.foldl (fun a op => (a.perform op).2) a

def replies (a : Arena α) : List Op → List Reply
  | [] => []
  | op :: ops => (a.perform op).1 :: replies (a.perform op).2 ops

def obtains (a : Arena α) : Op → List Nat
  | .alloc n zero =>
    List.range' a.regions.size ((alloc n zero a).2.regions.size - a.regions.size)
  | .release _ => []
  | .foreign _ => []
  | .close => []

def obtainsAll (a : Arena α) : List Op → List Nat
  | [] => []
  | op :: ops => a.obtains op ++ obtainsAll (a.perform op).2 ops

theorem obtainsAll_append (a : Arena α) (ops later : List Op) :
    a.obtainsAll (ops ++ later) = a.obtainsAll ops ++ (a.performAll ops).obtainsAll later := by
  induction ops generalizing a with
  | nil => rfl
  | cons op ops ih =>
    rw [List.cons_append, obtainsAll, obtainsAll, ih, List.append_assoc]
    rfl

def kept (a : Arena α) : List Nat := a.blocks.toList ++ a.large

/-- From `a` to `a'` the regions `new` have come from the source, and nothing has gone back. -/
structure Extends (a a' : Arena α) (new : List Nat) : Prop where
  size_le : a.regions.size ≤ a'.regions.size
  new_eq : new = List.range' a.regions.size (a'.regions.size - a.regions.size)
  kept_perm : a'.kept.Perm (new ++ a.kept)
  returned_eq : a'.returned = a.returned
  source_eq : a'.source = a.source
  free : ∀ c b, b ∈ a'.free.getD c [] → b ∈ a.free.getD c [] ∨ b.region ∈ new

/-- The buffer is empty, or it lies in `new`, or it was free. -/
def Stems (a : Arena α) (new : List Nat) (b : Buffer) : Prop :=
  b.capacity = 0 ∨ b.region ∈ new ∨ ∃ c, ∃ chunk ∈ a.free.getD c [], chunk.extent = b.extent

omit [Element α] in
theorem extends_refl (a : Arena α) : a.Extends a [] where
  size_le := Nat.le_refl _
  new_eq := by simp
  kept_perm := .refl _
  returned_eq := rfl
  source_eq := rfl
  free _ _ h := .inl h

omit [Element α] in
theorem Extends.trans {a₁ a₂ : Arena α} {new₁ new₂ : List Nat} (h₁ : a.Extends a₁ new₁)
    (h₂ : a₁.Extends a₂ new₂) : a.Extends a₂ (new₁ ++ new₂) where
  size_le := Nat.le_trans h₁.size_le h₂.size_le
  new_eq := by
    obtain ⟨j, hj⟩ := Nat.exists_eq_add_of_le h₁.size_le
    obtain ⟨k, hk⟩ := Nat.exists_eq_add_of_le h₂.size_le
    have hnew₁ : new₁ = List.range' a.regions.size j := by rw [h₁.new_eq, hj, Nat.add_sub_cancel_left]
    have hnew₂ : new₂ = List.range' (a.regions.size + j) k := by
      rw [h₂.new_eq, hk, Nat.add_sub_cancel_left, hj]
    rw [hnew₁, hnew₂, List.range'_append_1, hk, hj, Nat.add_assoc, Nat.add_sub_cancel_left]
  kept_perm := by
    refine h₂.kept_perm.trans ((h₁.kept_perm.append_left new₂).trans ?_)
    rw [← List.append_assoc]
    exact List.perm_append_comm.append_right _
  returned_eq := h₂.returned_eq.trans h₁.returned_eq
  source_eq := h₂.source_eq.trans h₁.source_eq
  free c b hb := by
    rcases h₂.free c b hb with hb | hb
    · rcases h₁.free c b hb with hb | hb
      · exact .inl hb
      · exact .inr (List.mem_append_left _ hb)
    · exact .inr (List.mem_append_right _ hb)

omit [Element α] in
theorem extends_turnedDown (a : Arena α) : a.Extends a.turnedDown [] := { a.extends_refl with }

theorem extends_refilled (a : Arena α) (c : Nat) : a.Extends (a.refilled c) [a.regions.size] := by
  refine ⟨by simp [refilled], by simp [refilled], ?_, rfl, rfl, fun c' b hb => ?_⟩
  · simp only [kept, refilled, Array.toList_push, List.append_assoc]
    exact List.perm_middle
  · rcases mem_getD_modify hb with hold | ⟨-, hnew⟩
    · exact .inl hold
    · obtain ⟨i, -, rfl⟩ := List.mem_map.mp hnew
      exact .inr List.mem_cons_self

theorem extends_lending {c : Nat} {chunk : Buffer} {rest : List Buffer}
    (hfree : a.free.getD c [] = chunk :: rest) (n : Nat) (zero : Bool) :
    a.Extends (a.lending c n zero chunk rest) [] := by
  have hsize := a.size_lending c n zero chunk rest
  refine ⟨Nat.le_of_eq hsize.symm, ?_, .refl _, rfl, rfl,
    fun c' b hb => .inl (mem_getD_of_setIfInBounds hfree hb)⟩
  rw [hsize, Nat.sub_self, List.range'_zero]

omit [Element α] in
theorem extends_opened (a : Arena α) (n : Nat) : a.Extends (a.opened n) [a.regions.size] :=
  ⟨by simp [opened], by simp [opened], List.perm_middle, rfl, rfl, fun _ _ hb => .inl hb⟩

/-- All that asking for memory does to the books. -/
theorem Answers.extends {n : Int} {zero : Bool} {r : Outcome Buffer × Arena α}
    (h : a.Answers n zero r) :
    ∃ new, a.Extends r.2 new ∧ ∀ b, r.1 = .done b → a.Stems new b := by
  cases h with
  | negative fault hn => exact ⟨_, a.extends_refl, by rintro _ ⟨⟩⟩
  | empty hn =>
    refine ⟨_, a.extends_refl, ?_⟩
    rintro _ ⟨⟩
    exact .inl rfl
  | failed k fault fault' hn hpos hresponse => exact ⟨_, a.extends_turnedDown, by rintro _ ⟨⟩⟩
  | crashed k crash hn hpos hresponse => exact ⟨_, a.extends_turnedDown, by rintro _ ⟨⟩⟩
  | large k hn hpos hclass =>
    refine ⟨_, a.extends_opened k, ?_⟩
    rintro _ ⟨⟩
    exact .inr (.inl List.mem_cons_self)
  | chunk k c chunk rest hn hpos hclass hfree =>
    refine ⟨_, extends_lending hfree k zero, ?_⟩
    rintro _ ⟨⟩
    exact .inr (.inr ⟨c, chunk, hfree ▸ List.mem_cons_self, rfl⟩)
  | carved k c chunk rest hn hpos hclass hfree =>
    have hrefilled := a.extends_refilled c
    refine ⟨_, hrefilled.trans (extends_lending hfree k zero), ?_⟩
    rintro _ ⟨⟩
    -- the chunk was free before or is new
    rcases hrefilled.free c chunk (hfree ▸ List.mem_cons_self) with hold | hnew
    · exact .inr (.inr ⟨c, chunk, hold, rfl⟩)
    · exact .inr (.inl (List.mem_append_left _ hnew))
  | unlisted k c hn hclass hfree => exact ⟨_, a.extends_refilled c, by rintro _ ⟨⟩⟩

theorem extends_alloc [LawfulElement α] (a : Arena α) {n : Int} {zero : Bool}
    (hfits : (Op.alloc n zero).Fits α) :
    a.Extends (alloc n zero a).2 (a.obtains (.alloc n zero)) ∧
      ∀ b, (alloc n zero a).1 = .done b → a.Stems (a.obtains (.alloc n zero)) b := by
  obtain ⟨new, hextends, hstems⟩ := (a.answers_alloc hfits zero).extends
  have hnew : a.obtains (.alloc n zero) = new := hextends.new_eq.symm
  rw [hnew]
  exact ⟨hextends, hstems⟩

omit [Element α] in
theorem foldl_giveBack (a : Arena α) (regions : List Nat) (fault : Option Fault) :
    regions.foldl (fun (r : Option Fault × Arena α) region =>
        (r.1.or (r.2.giveBack region).1, (r.2.giveBack region).2)) (fault, a) =
      (fault.or ((List.range' a.returned.size regions.length).findSome? a.source.refusal),
        { a with returned := a.returned ++ regions }) := by
  induction regions generalizing a fault with
  | nil => simp
  | cons region regions ih =>
    rw [List.foldl_cons, ih]
    simp only [giveBack, Array.size_push, List.length_cons, List.range'_succ, List.findSome?_cons]
    refine Prod.ext ?_ ?_
    · cases fault <;> cases a.source.refusal a.returned.size <;> rfl
    · simp

/-- Closing passes back all that is kept, one region after the other, and reports the first fault. -/
theorem close_eq (a : Arena α) :
    a.close = ((List.range' a.returned.size a.kept.length).findSome? a.source.refusal,
      { a with
        returned := a.returned ++ a.kept, blocks := #[], large := [],
        free := Array.replicate (classCount α) [], stats := {} }) := by
  unfold close
  dsimp only
  rw [foldl_giveBack a (a.blocks.toList ++ a.large) none]
  rfl

/-- What has come from the source, `got`, is kept or has been passed back. -/
structure Books (a : Arena α) (got : List Nat) : Prop where
  perm : (a.returned.toList ++ a.kept).Perm got
  nodup : got.Nodup
  lt : ∀ r ∈ got, r < a.regions.size

variable {got : List Nat}

omit [Element α] in
theorem Extends.books {new : List Nat} (he : a.Extends a' new) (h : a.Books got) :
    a'.Books (got ++ new) where
  perm := by
    rw [he.returned_eq]
    calc (a.returned.toList ++ a'.kept).Perm (a.returned.toList ++ (new ++ a.kept)) :=
          he.kept_perm.append_left _
      _ |>.Perm (a.returned.toList ++ (a.kept ++ new)) := List.perm_append_comm.append_left _
      _ |>.Perm (got ++ new) := by
        rw [← List.append_assoc]
        exact h.perm.append_right new
  nodup := by
    refine List.nodup_append.mpr ⟨h.nodup, he.new_eq ▸ List.nodup_range', fun r hr s hs => ?_⟩
    rw [he.new_eq, List.mem_range'_1] at hs
    have hlt := h.lt r hr
    omega
  lt r hr := by
    have hle := he.size_le
    rcases List.mem_append.mp hr with hr | hr
    · exact Nat.lt_of_lt_of_le (h.lt r hr) hle
    · rw [he.new_eq, List.mem_range'_1] at hr
      omega

omit [Element α] in
theorem Books.passBack (h : a.Books got) {r : Nat} (hr : r ∈ a.large) : (a.passBack r).Books got := by
  refine ⟨.trans ?_ h.perm, h.nodup, h.lt⟩
  simp only [kept, Arena.passBack, Array.toList_push, List.append_assoc, List.singleton_append]
  exact (List.perm_middle.symm.trans ((List.perm_cons_erase hr).symm.append_left _)).append_left _

/-- Whatever is released, the books stay right. -/
theorem Books.release (h : a.Books got) (b : Buffer) : (release b a).2.Books got := by
  have htaken := a.taken_release b
  generalize Arena.release b a = r at htaken ⊢
  cases htaken with
  | nothing hcap => exact h
  | large hcap hlarge hrefusal => exact h.passBack hlarge.2
  | stuck fault hcap hlarge hrefusal => exact h.passBack hlarge.2
  | chunk c hnot hc hsize => exact ⟨h.perm, h.nodup, h.lt⟩
  | refused hcap hnot hsize => exact h

theorem Books.close (h : a.Books got) : a.close.2.Books got := by
  rw [close_eq]
  refine ⟨?_, h.nodup, h.lt⟩
  simpa [kept] using h.perm

theorem Books.perform [LawfulElement α] (h : a.Books got) (hop : op.Fits α) :
    (a.perform op).2.Books (got ++ a.obtains op) := by
  cases op with
  | alloc n zero => exact (extends_alloc a hop).1.books h
  | release b =>
    rw [obtains, List.append_nil]
    exact h.release b
  | foreign elems =>
    rw [obtains, List.append_nil]
    refine ⟨h.perm, h.nodup, fun r hr => ?_⟩
    have hlt := h.lt r hr
    simp only [Arena.perform, foreign, Array.size_push]
    omega
  | close =>
    rw [obtains, List.append_nil]
    exact h.close

theorem Books.performAll [LawfulElement α] (h : a.Books got) (hops : ∀ op ∈ ops, op.Fits α) :
    (a.performAll ops).Books (got ++ a.obtainsAll ops) := by
  induction ops generalizing a got with
  | nil =>
    rw [obtainsAll, List.append_nil]
    exact h
  | cons op ops ih =>
    rw [List.forall_mem_cons] at hops
    rw [obtainsAll, ← List.append_assoc]
    exact ih (h.perform hops.1) hops.2

theorem books_new (source : BlockSource) : (new source : Arena α).Books [] :=
  ⟨.refl _, List.nodup_nil, nofun⟩

theorem source_perform [LawfulElement α] (a : Arena α) (hop : op.Fits α) :
    (a.perform op).2.source = a.source := by
  cases op with
  | alloc n zero => exact (extends_alloc a hop).1.source_eq
  | release b =>
    have htaken := a.taken_release b
    change (Arena.release b a).2.source = a.source
    generalize Arena.release b a = r at htaken ⊢
    cases htaken <;> rfl
  | foreign elems => rfl
  | close =>
    rw [perform, close_eq]

theorem source_performAll [LawfulElement α] (hops : ∀ op ∈ ops, op.Fits α) :
    (a.performAll ops).source = a.source := by
  induction ops generalizing a with
  | nil => rfl
  | cons op ops ih =>
    rw [List.forall_mem_cons] at hops
    exact (ih hops.2).trans (source_perform a hops.1)

def Stocked (a : Arena α) (got : List Nat) (ops : List Op) : Prop :=
  ∀ c, ∀ chunk ∈ a.free.getD c [],
    chunk.region ∈ got ∨ ∃ b, Op.release b ∈ ops ∧ b.extent = chunk.extent

omit [Element α] in
theorem Stocked.mono {got' : List Nat} {ops' : List Op} (h : a.Stocked got ops)
    (hfree : ∀ c, ∀ chunk ∈ a'.free.getD c [], chunk ∈ a.free.getD c [] ∨ chunk.region ∈ got' ∨
      ∃ b, Op.release b ∈ ops' ∧ b.extent = chunk.extent)
    (hgot : ∀ r ∈ got, r ∈ got') (hops : ∀ op ∈ ops, op ∈ ops') : a'.Stocked got' ops' := by
  intro c chunk hchunk
  rcases hfree c chunk hchunk with hold | hnew
  · rcases h c chunk hold with hr | ⟨b, hb, hextent⟩
    · exact .inl (hgot _ hr)
    · exact .inr ⟨b, hops _ hb, hextent⟩
  · exact hnew

theorem mem_free_release (b : Buffer) {c : Nat} {chunk : Buffer}
    (h : chunk ∈ (release b a).2.free.getD c []) :
    chunk ∈ a.free.getD c [] ∨ b.extent = chunk.extent := by
  have htaken := a.taken_release b
  generalize Arena.release b a = r at htaken h
  cases htaken with
  | nothing hcap => exact .inl h
  | large hcap hlarge hrefusal => exact .inl h
  | stuck fault hcap hlarge hrefusal => exact .inl h
  | chunk c' hnot hc hsize =>
    change chunk ∈ (a.free.modify c' ([{ b with length := b.capacity }] ++ ·)).getD c [] at h
    rcases mem_getD_modify h with hold | ⟨-, hnew⟩
    · exact .inl hold
    · cases List.mem_singleton.mp hnew
      exact .inr rfl
  | refused hcap hnot hsize => exact .inl h

theorem Stocked.perform [LawfulElement α] (h : a.Stocked got ops) (hop : op.Fits α) :
    (a.perform op).2.Stocked (got ++ a.obtains op) (ops ++ [op]) := by
  have hops (o : Op) (ho : o ∈ ops) : o ∈ ops ++ [op] := List.mem_append_left _ ho
  have hgot (r : Nat) (hr : r ∈ got) : r ∈ got ++ a.obtains op := List.mem_append_left _ hr
  refine h.mono (fun c chunk hchunk => ?_) hgot hops
  cases op with
  | alloc n zero =>
    rcases (extends_alloc a hop).1.free c chunk hchunk with hold | hnew
    · exact .inl hold
    · exact .inr (.inl (List.mem_append_right _ hnew))
  | release b =>
    rcases mem_free_release b hchunk with hold | hextent
    · exact .inl hold
    · exact .inr (.inr ⟨b, List.mem_append_right _ List.mem_cons_self, hextent⟩)
  | foreign elems => exact .inl hchunk
  | close =>
    rw [Arena.perform, close_eq, Array.getD_eq_getD_getElem?, Array.getElem?_replicate] at hchunk
    split at hchunk <;> cases hchunk

theorem Stocked.performAll [LawfulElement α] {later : List Op} (h : a.Stocked got ops)
    (hlater : ∀ op ∈ later, op.Fits α) :
    (a.performAll later).Stocked (got ++ a.obtainsAll later) (ops ++ later) := by
  induction later generalizing a got ops with
  | nil =>
    rw [obtainsAll, List.append_nil, List.append_nil]
    exact h
  | cons op later ih =>
    rw [List.forall_mem_cons] at hlater
    rw [obtainsAll, ← List.append_assoc, List.append_cons]
    exact ih (h.perform hlater.1) hlater.2

/-- A closed arena has nothing to hand out but new blocks and what is released from then on. -/
theorem stems_of_close [LawfulElement α] (a : Arena α) {later : List Op}
    (hlater : ∀ op ∈ later, op.Fits α) {n : Int} {zero : Bool} (hn : (Op.alloc n zero).Fits α)
    (hb : (alloc n zero (a.close.2.performAll later)).1 = .done b) (hcap : b.capacity ≠ 0) :
    b.region ∈ a.close.2.obtainsAll (later ++ [.alloc n zero]) ∨
      ∃ b', Op.release b' ∈ later ∧ b'.extent = b.extent := by
  have hempty : a.close.2.Stocked [] [] := by
    intro c chunk hchunk
    rw [close_eq, Array.getD_eq_getD_getElem?, Array.getElem?_replicate] at hchunk
    split at hchunk <;> cases hchunk
  have hstocked := hempty.performAll hlater
  rw [obtainsAll_append, List.mem_append]
  rcases (extends_alloc _ hn).2 b hb with h0 | hnew | ⟨c, chunk, hchunk, hextent⟩
  · exact absurd h0 hcap
  · exact .inl (.inr (List.mem_append_left _ hnew))
  · rcases hstocked c chunk hchunk with hr | ⟨b', hb', hextent'⟩
    · rw [show chunk.region = b.region from congrArg Prod.fst hextent] at hr
      exact .inl (.inl hr)
    · exact .inr ⟨b', hb', hextent'.trans hextent⟩

structure Akin (a a' : Arena α) : Prop where
  source : a.source.onward a.requests a.returned.size =
    a'.source.onward a'.requests a'.returned.size
  regions : a.regions = a'.regions
  free : a.free = a'.free
  blocks : a.blocks = a'.blocks
  large : a.large = a'.large
  stats : a.stats = a'.stats

/-- What was asked of the source before makes no difference to the action. -/
def Heedless {β : Type} (x : Action (Arena α) β) : Prop :=
  ∀ a a' : Arena α, a.Akin a' → (x a).1 = (x a').1 ∧ (x a).2.Akin (x a').2

namespace Heedless

variable {β γ : Type} {x : Action (Arena α) β} {f : β → Action (Arena α) γ}

omit [Element α] in
theorem bind (hx : Heedless x) (hf : ∀ v, Heedless (f v)) : Heedless (x >>= f) :=
  fun a a' h => Action.rel_bind (r := Akin) (hx a a' h) hf

omit [Element α] in
theorem wrapResource (hx : Heedless x) (message : String) :
    Heedless (Arena.wrapResource message x) := by
  intro a a' h
  obtain ⟨hfst, hsnd⟩ := hx a a' h
  rcases ha : x a with ⟨v | fault | crash, a₁⟩ <;>
    rcases ha' : x a' with ⟨v' | fault' | crash', a₁'⟩ <;>
    rw [ha, ha'] at hfst hsnd <;> cases hfst <;>
    simp only [Arena.wrapResource, ha, ha', true_and] <;> exact hsnd

end Heedless

theorem heedless_obtain (elems : Nat) : Heedless (obtain elems : Action (Arena α) Nat) := by
  intro a a' h
  have hrequest : a.source.request a.requests (byteSize α elems) =
      a'.source.request a'.requests (byteSize α elems) :=
    congrArg (fun s : BlockSource => s.request 0 (byteSize α elems)) h.source
  have hsource : a.source.onward (a.requests + 1) a.returned.size =
      a'.source.onward (a'.requests + 1) a'.returned.size := by
    have hnext := congrArg (fun s : BlockSource => s.onward 1 0) h.source
    simpa only [BlockSource.onward_onward, Nat.add_zero] using hnext
  unfold obtain
  dsimp only
  rw [hrequest, h.regions]
  cases a'.source.request a'.requests (byteSize α elems) <;>
    exact ⟨rfl, hsource, by simp, h.free, h.blocks, h.large, h.stats⟩

theorem heedless_refill (c : Nat) : Heedless (refill c : Action (Arena α) Unit) := by
  refine ((heedless_obtain _).wrapResource _).bind fun region a a' h => ?_
  exact ⟨rfl, h.source, h.regions, by simp [h.free], by simp [h.blocks], h.large, by simp [h.stats]⟩

theorem heedless_take (c n : Nat) (zero : Bool) : Heedless (take c n zero : Action (Arena α) _) := by
  intro a a' h
  unfold take
  rw [h.free]
  cases a'.free.getD c [] with
  | nil => exact ⟨rfl, h⟩
  | cons chunk rest =>
    exact ⟨rfl, h.source, by simp [h.regions], rfl, h.blocks, h.large, by simp [h.stats]⟩

theorem heedless_allocLarge (n : Nat) : Heedless (allocLarge n : Action (Arena α) _) := by
  refine ((heedless_obtain _).wrapResource _).bind fun region a a' h => ?_
  simp only [Action.read_bind_apply, h.regions]
  split
  · exact ⟨rfl, h⟩
  · exact ⟨rfl, h.source, h.regions, h.free, h.blocks, by simp [h.large], by simp [h.stats]⟩

theorem heedless_alloc (n : Int) (zero : Bool) : Heedless (alloc n zero : Action (Arena α) _) := by
  unfold alloc
  split
  · exact fun a a' h => ⟨rfl, h⟩
  · split
    · exact fun a a' h => ⟨rfl, h⟩
    · split
      · exact heedless_allocLarge _
      · rename_i c _
        refine Heedless.bind (fun a a' h => ⟨by simp [h.free], h⟩) fun chunks => ?_
        split
        · exact (heedless_refill c).bind fun _ => heedless_take c _ zero
        · exact heedless_take c _ zero

omit [Element α] in
theorem Akin.refusal_eq (h : a.Akin a') (k : Nat) :
    a.source.refusal (a.returned.size + k) = a'.source.refusal (a'.returned.size + k) :=
  congrArg (fun s : BlockSource => s.refusal k) h.source

omit [Element α] in
theorem Akin.onward_returned (h : a.Akin a') (k : Nat) :
    a.source.onward a.requests (a.returned.size + k) =
      a'.source.onward a'.requests (a'.returned.size + k) := by
  have hnext := congrArg (fun s : BlockSource => s.onward 0 k) h.source
  simpa only [BlockSource.onward_onward, Nat.add_zero] using hnext

theorem heedless_release (b : Buffer) : Heedless (release b : Action (Arena α) Unit) := by
  intro a a' h
  unfold release
  rw [h.large]
  split
  · exact ⟨rfl, h⟩
  · split
    · have hrefusal := h.refusal_eq 0
      rw [Nat.add_zero, Nat.add_zero] at hrefusal
      simp only [giveBack, hrefusal]
      cases a'.source.refusal a'.returned.size <;>
        exact ⟨rfl, by simpa using h.onward_returned 1, h.regions, h.free, h.blocks, rfl,
          by simp [h.stats]⟩
    · split
      · split
        · exact ⟨rfl, h.source, h.regions, by simp [h.free], h.blocks, rfl, by simp [h.stats]⟩
        · exact ⟨rfl, h⟩
      · exact ⟨rfl, h⟩

theorem Akin.perform (h : a.Akin a') (op : Op) :
    (a.perform op).1 = (a'.perform op).1 ∧ (a.perform op).2.Akin (a'.perform op).2 := by
  cases op with
  | alloc n zero =>
    obtain ⟨hfst, hsnd⟩ := heedless_alloc n zero a a' h
    exact ⟨congrArg Reply.lent hfst, hsnd⟩
  | release b =>
    obtain ⟨hfst, hsnd⟩ := heedless_release b a a' h
    exact ⟨congrArg Reply.released hfst, hsnd⟩
  | foreign elems =>
    simp only [Arena.perform, foreign, h.regions, true_and]
    exact ⟨h.source, rfl, h.free, h.blocks, h.large, h.stats⟩
  | close =>
    have hkept : a.kept = a'.kept := by rw [kept, kept, h.blocks, h.large]
    simp only [Arena.perform, close_eq, hkept]
    refine ⟨congrArg Reply.closed ?_, ?_, h.regions, rfl, rfl, rfl, rfl⟩
    · rw [List.range'_eq_map_range, List.range'_eq_map_range, List.findSome?_map, List.findSome?_map]
      exact congrArg (List.findSome? · _) (funext h.refusal_eq)
    · have honward := h.onward_returned a'.kept.length
      simpa only [← Array.length_toList, Array.toList_appendList, List.length_append] using honward

theorem Akin.replies_eq (h : a.Akin a') (ops : List Op) : a.replies ops = a'.replies ops := by
  induction ops generalizing a a' with
  | nil => rfl
  | cons op ops ih =>
    obtain ⟨hfst, hsnd⟩ := h.perform op
    rw [replies, replies, hfst, ih hsnd]

/-- Whatever is asked for and released, and whichever requests and returns fail: nothing but what
came from the source is passed back to it, and nothing twice. Closing passes back all the rest, says
whether a return has failed, and leaves an arena that replies to all that comes as a new one does; it
hands out nothing but new blocks and what has been released into it since. -/
theorem blocks_returned_once [LawfulElement α] (source : BlockSource) {ops : List Op}
    (hops : ∀ op ∈ ops, op.Fits α) :
    let a : Arena α := (new source : Arena α).performAll ops
    let got := (new source : Arena α).obtainsAll ops
    (got.Nodup ∧ a.returned.toList.Nodup ∧ ∀ r ∈ a.returned, r ∈ got) ∧
    (a.close.2.returned.toList.Perm got ∧ a.close.2.returned = a.returned ++ a.kept ∧
      (a.close.1.isSome ↔ ∃ k, a.returned.size ≤ k ∧ k < a.close.2.returned.size ∧
        (source.refusal k).isSome)) ∧
    (∀ later, a.close.2.replies later =
      { (new (source.onward a.close.2.requests a.close.2.returned.size) : Arena α) with
        regions := a.regions }.replies later) ∧
    ∀ later, (∀ op ∈ later, op.Fits α) → ∀ n zero b, (Op.alloc n zero).Fits α →
      (alloc n zero (a.close.2.performAll later)).1 = .done b → b.capacity ≠ 0 →
      b.region ∈ a.close.2.obtainsAll (later ++ [.alloc n zero]) ∨
        ∃ b', Op.release b' ∈ later ∧ b'.extent = b.extent := by
  intro a got
  have hbooks : a.Books got := (books_new source).performAll hops
  have hsource : a.source = source := source_performAll hops
  have hreturned : a.close.2.returned = a.returned ++ a.kept := by rw [close_eq]
  have hsize : a.close.2.returned.size = a.returned.size + a.kept.length := by
    rw [hreturned, ← Array.length_toList, Array.toList_appendList, List.length_append,
      Array.length_toList]
  refine ⟨⟨hbooks.nodup, ?_, fun r hr => ?_⟩, ⟨?_, hreturned, ?_⟩, fun later => ?_,
    fun later hlater n zero b hn => stems_of_close a hlater hn⟩
  · exact (List.nodup_append.mp (hbooks.perm.nodup_iff.mpr hbooks.nodup)).1
  · exact hbooks.perm.subset (List.mem_append_left _ hr.val)
  · rw [hreturned, Array.toList_appendList]
    exact hbooks.perm
  · rw [hsize, close_eq, List.findSome?_isSome_iff, hsource]
    simp only [List.mem_range'_1, and_assoc]
  · refine Akin.replies_eq ?_ later
    rw [close_eq]
    refine ⟨?_, rfl, rfl, rfl, rfl, rfl⟩
    rw [hsource]
    exact (BlockSource.onward_onward source _ _ 0 0).symm

/-- A denied request, a block, and a large buffer whose return is refused, which is then released
again and in part; memory from elsewhere, and another large buffer. -/
def misused : List Op :=
  [.alloc 100000 true, .alloc 100000 false, .alloc 300000 false, .release ⟨1, 0, 300000, 300000⟩,
    .release ⟨1, 0, 300000, 300000⟩, .release ⟨1, 16, 8, 8⟩, .foreign 300000,
    .release ⟨2, 0, 300000, 300000⟩, .alloc 400000 true]

theorem blocks_returned_once_misused :
    (∀ op ∈ misused, op.Fits UInt32) ∧
    let a : Arena UInt32 := (new (.failing .mapped [0] [0, 2])).performAll misused
    a.returned = #[1] ∧ a.close.2.returned.toList.Perm [0, 1, 3] ∧ a.close.1.isSome ∧
      a.close.2.replies [.release ⟨0, 0, 8, 8⟩] =
        { (new (BlockSource.onward (.failing .mapped [0] [0, 2]) 4 3) : Arena UInt32) with
          regions := a.regions }.replies [.release ⟨0, 0, 8, 8⟩] := by
  have hfits : ∀ op ∈ misused, op.Fits UInt32 := by decide
  have hreturns := blocks_returned_once (.failing .mapped [0] [0, 2]) hfits
  refine ⟨hfits, rfl, hreturns.2.1.1, hreturns.2.1.2.2.mpr ⟨2, by decide, by decide, rfl⟩,
    hreturns.2.2.1 _⟩

end Arena

end PlatterMachine
