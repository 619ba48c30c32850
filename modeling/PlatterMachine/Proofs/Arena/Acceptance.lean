import PlatterMachine.Proofs.Arena.Returns

/-!
# What an arena takes back

An arena does not remember which chunks it has lent. It knows a large buffer by where it starts, and
it takes whatever else has the capacity of a size class for one of its chunks. Memory from elsewhere,
a part of a buffer, or a chunk that has been released before is therefore refused only if its
capacity gives it away. A large buffer that has been released before is refused until another one
starts at the same place. What is refused leaves the arena as it was.
-/

namespace PlatterMachine.Arena

variable {α : Type} [Element α] {a : Arena α} {b : Buffer} {op : Op} {ops : List Op}

def Refuses (a : Arena α) (b : Buffer) : Prop := release b a = (.crashed (release.notOwned b), a)

/-- Nothing but the shape of a buffer decides. -/
theorem refuses_iff (a : Arena α) (hcap : b.capacity ≠ 0) :
    a.Refuses b ↔ ¬ a.StartsLarge b ∧ ¬ b.IsClassSized α := by
  have htaken := a.taken_release b
  rw [Refuses]
  generalize release b a = r at htaken
  cases htaken with
  | nothing hzero => exact absurd hzero hcap
  | large _ hlarge _ =>
    refine iff_of_false (fun heq => ?_) fun hnot => hnot.1 hlarge
    cases congrArg Prod.fst heq
  | stuck fault _ hlarge _ =>
    refine iff_of_false (fun heq => ?_) fun hnot => hnot.1 hlarge
    -- the count of large buffers has gone down
    have hstats := congrArg (fun r : Outcome Unit × Arena α => r.2.stats.largeLive) heq
    simp only [passBack] at hstats
    omega
  | chunk c _ hc hsize =>
    refine iff_of_false (fun heq => ?_) fun hboth => hboth.2 ⟨c, hc, hsize⟩
    cases congrArg Prod.fst heq
  | refused _ hnot hsize => exact iff_of_true rfl ⟨hnot, hsize⟩

theorem release_of_classSized (hlarge : ¬ a.StartsLarge b) {c : Nat} (hc : c < classCount α)
    (hsize : b.capacity = classElems α c) : release b a = (.done (), a.shelve c b) := by
  have hcap : b.capacity ≠ 0 := hsize ▸ Nat.ne_of_gt (classElems_pos α c)
  have htaken := a.taken_release b
  generalize release b a = r at htaken ⊢
  cases htaken with
  | nothing hzero => exact absurd hzero hcap
  | large _ h _ => exact absurd h hlarge
  | stuck _ _ h _ => exact absurd h hlarge
  | chunk c' _ hc' hsize' =>
    have hclass := classFor_classElems α hc
    rw [← hsize, hsize', classFor_classElems α hc', Option.some.injEq] at hclass
    rw [hclass]
  | refused _ _ h => exact absurd ⟨c, hc, hsize⟩ h

omit [Element α] in
/-- Memory from elsewhere is not in a region that is kept. -/
theorem Books.not_startsLarge_foreign {got : List Nat} (h : a.Books got) (elems : Nat) :
    ¬ (foreign elems a).2.StartsLarge ⟨a.regions.size, 0, elems, elems⟩ := by
  rintro ⟨-, hmem⟩
  have hgot : a.regions.size ∈ got :=
    h.perm.subset (List.mem_append_right _ (List.mem_append_right _ hmem))
  exact Nat.lt_irrefl _ (h.lt _ hgot)

omit [Element α] in
/-- A part that leaves out the first elements does not start a region. -/
theorem not_startsLarge_of_slice {part : Buffer} {start stop : Int}
    (h : b.slice? start stop = some part) (hstart : 0 < start) : ¬ a.StartsLarge part := by
  unfold Buffer.slice? at h
  split at h
  · cases h
    rintro ⟨hzero, -⟩
    dsimp only at hzero
    omega
  · cases h

/-- The operation hands out a large buffer that starts where `b` does. -/
def Reopens (a : Arena α) (b : Buffer) (op : Op) : Prop :=
  ∃ n zero b', op = .alloc n zero ∧ (alloc n zero a).1 = .done b' ∧
    (alloc n zero a).2.StartsLarge b' ∧ b'.region = b.region ∧ b'.offset = b.offset

def ReopensAmong (a : Arena α) (b : Buffer) : List Op → Prop
  | [] => False
  | op :: ops => a.Reopens b op ∨ (a.perform op).2.ReopensAmong b ops

theorem Answers.not_startsLarge {n : Int} {zero : Bool} {r : Outcome Buffer × Arena α}
    (h : a.Answers n zero r) (hb : ¬ a.StartsLarge b)
    (hnot : ∀ b', r.1 = .done b' → r.2.StartsLarge b' → b'.region = b.region →
      b'.offset ≠ b.offset) : ¬ r.2.StartsLarge b := by
  cases h with
  | negative fault hn => exact hb
  | empty hn => exact hb
  | failed k fault fault' hn hpos hresponse => exact hb
  | crashed k crash hn hpos hresponse => exact hb
  | large k hn hpos hclass =>
    rintro ⟨hzero, hmem⟩
    rcases List.mem_cons.mp hmem with hnew | hold
    · exact hnot _ rfl ⟨rfl, List.mem_cons_self⟩ hnew.symm hzero.symm
    · exact hb ⟨hzero, hold⟩
  | chunk k c chunk rest hn hpos hclass hfree => exact hb
  | carved k c chunk rest hn hpos hclass hfree => exact hb
  | unlisted k c hn hclass hfree => exact hb

theorem not_startsLarge_perform [LawfulElement α] (hop : op.Fits α) (hb : ¬ a.StartsLarge b)
    (hnot : ¬ a.Reopens b op) : ¬ (a.perform op).2.StartsLarge b := by
  cases op with
  | alloc n zero =>
    refine (a.answers_alloc hop zero).not_startsLarge hb fun b' hdone hlarge hregion hoffset => ?_
    exact hnot ⟨n, zero, b', rfl, hdone, hlarge, hregion, hoffset⟩
  | release b' =>
    have htaken := a.taken_release b'
    change ¬ (Arena.release b' a).2.StartsLarge b
    generalize Arena.release b' a = r at htaken ⊢
    cases htaken with
    | nothing _ => exact hb
    | large _ _ _ => exact fun h => hb ⟨h.1, List.mem_of_mem_erase h.2⟩
    | stuck _ _ _ _ => exact fun h => hb ⟨h.1, List.mem_of_mem_erase h.2⟩
    | chunk _ _ _ _ => exact hb
    | refused _ _ _ => exact hb
  | foreign elems => exact hb
  | close =>
    rw [perform, close_eq]
    rintro ⟨-, hmem⟩
    cases hmem

theorem not_startsLarge_performAll [LawfulElement α] (hops : ∀ op ∈ ops, op.Fits α)
    (hb : ¬ a.StartsLarge b) (hnot : ¬ a.ReopensAmong b ops) :
    ¬ (a.performAll ops).StartsLarge b := by
  induction ops generalizing a with
  | nil => exact hb
  | cons op ops ih =>
    rw [List.forall_mem_cons] at hops
    obtain ⟨hop, hrest⟩ := not_or.mp hnot
    exact ih hops.2 (not_startsLarge_perform hops.1 hb hop) hrest

/-- Releasing a large buffer strikes it off the list of them. -/
theorem Books.not_startsLarge_release {got : List Nat} (h : a.Books got) (hcap : b.capacity ≠ 0)
    (hlarge : a.StartsLarge b) : ¬ (Arena.release b a).2.StartsLarge b := by
  have hnodup : a.large.Nodup := by
    have hall := h.perm.nodup_iff.mpr h.nodup
    exact (List.nodup_append.mp (List.nodup_append.mp hall).2.1).2.1
  have htaken := a.taken_release b
  generalize Arena.release b a = r at htaken ⊢
  cases htaken with
  | nothing hzero => exact absurd hzero hcap
  | large _ _ _ => exact fun hstarts => hnodup.not_mem_erase hstarts.2
  | stuck _ _ _ _ => exact fun hstarts => hnodup.not_mem_erase hstarts.2
  | chunk _ hnot _ _ => exact absurd hlarge hnot
  | refused _ hnot _ => exact absurd hlarge hnot

/-- What has been taken back once is refused only if its capacity is not that of a chunk, and then
for as long as no large buffer starts there. -/
theorem Books.refuses_again [LawfulElement α] {got : List Nat} (h : a.Books got)
    (hcap : b.capacity ≠ 0) (htaken : ¬ a.Refuses b) {later : List Op}
    (hlater : ∀ op ∈ later, op.Fits α) (hnot : ¬ (Arena.release b a).2.ReopensAmong b later) :
    ((Arena.release b a).2.performAll later).Refuses b ↔ ¬ b.IsClassSized α := by
  rw [refuses_iff _ hcap, and_iff_right_of_imp]
  intro hsize
  have hlarge : a.StartsLarge b := by
    by_contra hsmall
    exact htaken ((refuses_iff a hcap).mpr ⟨hsmall, hsize⟩)
  exact not_startsLarge_performAll hlater (h.not_startsLarge_release hcap hlarge) hnot

/-- However an arena has been used, it refuses exactly the buffers that neither start a live large
buffer nor have the capacity of a size class, and is then as it was. Whatever else does not start a
large buffer is shelved as a chunk. So of memory from elsewhere and of parts that leave out the first
elements it refuses those whose capacity is not that of a class, and of what it has taken back
before the same, until it hands out a large buffer that starts there. -/
theorem release_judges_by_shape [LawfulElement α] (source : BlockSource) {ops : List Op}
    (hops : ∀ op ∈ ops, op.Fits α) :
    let a : Arena α := (new source : Arena α).performAll ops
    (∀ b : Buffer, b.capacity ≠ 0 → (a.Refuses b ↔ ¬ a.StartsLarge b ∧ ¬ b.IsClassSized α)) ∧
    (∀ b c, ¬ a.StartsLarge b → c < classCount α → b.capacity = classElems α c →
      release b a = (.done (), a.shelve c b)) ∧
    (∀ elems b a', elems ≠ 0 → foreign elems a = (.done b, a') →
      b.capacity = elems ∧ (a'.Refuses b ↔ ¬ b.IsClassSized α)) ∧
    (∀ (b : Buffer) start stop part, b.slice? start stop = some part → 0 < start → part.capacity ≠ 0 →
      (a.Refuses part ↔ ¬ part.IsClassSized α)) ∧
    ∀ b : Buffer, b.capacity ≠ 0 → ¬ a.Refuses b → ∀ later, (∀ op ∈ later, op.Fits α) →
      ¬ (release b a).2.ReopensAmong b later →
      (((release b a).2.performAll later).Refuses b ↔ ¬ b.IsClassSized α) := by
  intro a
  have hbooks : a.Books ((new source : Arena α).obtainsAll ops) := (books_new source).performAll hops
  refine ⟨fun b hcap => refuses_iff a hcap, fun b c hlarge hc hsize =>
    release_of_classSized hlarge hc hsize, ?_, fun b start stop part hpart hstart hcap => ?_,
    fun b hcap htaken later hlater => hbooks.refuses_again hcap htaken hlater⟩
  · rintro elems _ _ helems ⟨⟩
    refine ⟨rfl, ?_⟩
    rw [refuses_iff _ (by exact helems)]
    exact and_iff_right (hbooks.not_startsLarge_foreign elems)
  · rw [refuses_iff a hcap]
    exact and_iff_right (not_startsLarge_of_slice hpart hstart)

def halfLent : List Op := [.alloc 131072 false]

/-- The second half of what was lent has the capacity of a class; its last three quarters have not. -/
theorem release_judges_by_shape_halves :
    (∀ op ∈ halfLent, op.Fits UInt32) ∧
      let a : Arena UInt32 := (new .heap).performAll halfLent
      ¬ a.Refuses ⟨0, 65536, 65536, 65536⟩ ∧ a.Refuses ⟨0, 32768, 98304, 98304⟩ := by
  have hfits : ∀ op ∈ halfLent, op.Fits UInt32 := by decide
  have hparts := (release_judges_by_shape .heap hfits).2.2.2.1 ⟨0, 0, 131072, 131072⟩
  have hsecond := hparts 65536 131072 ⟨0, 65536, 65536, 65536⟩ rfl (by decide) (by decide)
  have hlast := hparts 32768 131072 ⟨0, 32768, 98304, 98304⟩ rfl (by decide) (by decide)
  refine ⟨hfits, fun hrefuses => ?_, hlast.mpr ?_⟩
  · exact hsecond.mp hrefuses ⟨13, by decide, by decide⟩
  · rintro ⟨c, hc, hsize⟩
    have hnone : ∀ c < classCount UInt32, 98304 ≠ classElems UInt32 c := by decide
    exact hnone c hc hsize

/-- A new arena takes memory from elsewhere for its own: it counts one chunk less than none, and lends
that memory to the next client. -/
theorem foreign_memory_lent : ∃ b a a₁ a₂, foreign 8 (new .heap : Arena UInt32) = (.done b, a) ∧
    b.capacity ≠ 0 ∧ release b a = (.done (), a₁) ∧ a₁.stats.chunksLive = -1 ∧
    a₁.free ≠ a.free ∧ alloc 8 false a₁ = (.done b, a₂) :=
  ⟨_, _, _, _, rfl, by decide, rfl, rfl, by decide, rfl⟩

end PlatterMachine.Arena
