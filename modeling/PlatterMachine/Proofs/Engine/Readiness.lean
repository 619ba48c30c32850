import PlatterMachine.Proofs.Engine.HandleTable
import PlatterMachine.Proofs.Engine.Suspension

/-!
# Engines that can go on

Whatever an engine has been through, if its memory is plentiful, its input arrives and its output is
accepted, then it runs as the plain machine does that has its registers, its arrays and its finger.
-/

namespace PlatterMachine

namespace Arena

variable {α : Type} [Element α] {a : Arena α} {live live' : Multiset Buffer}

theorem Lends.of_add (h : a.Lends (live + live')) : a.Lends live := by
  induction live' using Multiset.induction with
  | empty => rwa [add_zero] at h
  | cons b live' ih =>
    rw [Multiset.add_cons] at h
    exact ih h.of_cons

omit [Element α] in
theorem countP_le_countP {p q : Buffer → Prop} [DecidablePred p] [DecidablePred q]
    (h : ∀ b ∈ live, p b → q b) : live.countP p ≤ live.countP q := by
  induction live using Quotient.inductionOn with
  | h buffers =>
    apply List.countP_mono_left
    simpa using h

/-- Where chunks tile the blocks and the source is reliable, memory is lent as it should be. -/
theorem Tiled.lends (h : a.Tiled live) (hreliable : a.source.Reliable) : a.Lends live where
  reliable := hreliable
  size_free := h.size_free
  free c b hb := by
    obtain ⟨chunks, hc, hb⟩ := mem_getD_iff.mp hb
    obtain ⟨hcap, -, hblock⟩ := h.free c chunks hc b hb
    exact ⟨hcap, (h.size_block _ hblock).1, h.disjoint _ hblock⟩
  large_lt := h.size_large
  nodup := h.nodup_large
  owned b hb hcap := by
    by_cases hlarge : b.IsLarge α
    · obtain ⟨hmem, hzero, -⟩ := (h.lent b hb).large hlarge
      exact Or.inl ⟨hzero, hmem⟩
    · obtain ⟨hblock, c, hc, hcap'⟩ :=
        (h.lent b hb).chunk ⟨Nat.pos_of_ne_zero hcap, Nat.le_of_not_lt hlarge⟩
      exact Or.inr ⟨c, hc, hcap', (h.size_block _ hblock).1, h.disjoint _ hblock⟩
  apart r hr := by
    -- what is lent of a large region holds its first element, and only one buffer does
    have hfirst (b : Buffer) (hb : b ∈ live) (hregion : b.capacity ≠ 0 ∧ b.region = r) :
        b.Holds r 0 := by
      obtain ⟨hcap, rfl⟩ := hregion
      by_cases hlarge : b.IsLarge α
      · obtain ⟨-, hzero, -⟩ := (h.lent b hb).large hlarge
        exact ⟨rfl, by omega, by omega⟩
      · obtain ⟨hblock, -⟩ :=
          (h.lent b hb).chunk ⟨Nat.pos_of_ne_zero hcap, Nat.le_of_not_lt hlarge⟩
        exact absurd hr (h.disjoint _ hblock)
    have honce := h.once r 0
    rw [Multiset.countP_add] at honce
    have hle := countP_le_countP hfirst
    split at honce <;> omega

end Arena

/-- The loans for some arrays are their buffers and those of their code. -/
theorem Loans.sum_loans (arrays : Multiset PlatterArray) :
    (arrays.map PlatterArray.loans).sum = ⟨arrays.map PlatterArray.buffer,
      (arrays.bind PlatterArray.codes).map Prod.fst,
      (arrays.bind PlatterArray.codes).map Prod.snd⟩ := by
  induction arrays using Multiset.induction with
  | empty => rfl
  | cons a arrays ih =>
    rw [Multiset.map_cons, Multiset.sum_cons, Multiset.map_cons, Multiset.cons_bind, ih,
      PlatterArray.loans, add_assoc]
    cases hco : a.code with
    | none =>
      rw [PlatterArray.codeLoans_of_none hco, PlatterArray.codes_of_none hco, zero_add, zero_add,
        Loans.words_add]
    | some co =>
      rw [PlatterArray.codeLoans_of_some hco, PlatterArray.codes_of_some hco, CodeObject.loans_add,
        Loans.words_add, Multiset.singleton_add, Multiset.map_cons, Multiset.map_cons]
      rfl

namespace Engine

variable {e : Engine} {input : List UInt8} {m₀ : Memory} {l₀ others : Loans}

structure Abundant (m : Memory) : Prop where
  platters : m.platters.source.Reliable
  code : m.code.source.Reliable
  slots : m.slots.source.Reliable

theorem Owned.supplied (ho : e.Owned m₀ l₀ others) (hmemory : Abundant e.host.memory) :
    e.Supplied where
  lends := by
    obtain ⟨hplatters, hcode, hslots⟩ := ho.account
    have hloans : e.machine.loans = _ := Loans.sum_loans e.machine.arrays
    have htiled := (hplatters.traffic.tiled hplatters.tiled).1
    have htiled' := (hcode.traffic.tiled hcode.tiled).1
    have htiled'' := (hslots.traffic.tiled hslots.tiled).1
    rw [hloans] at htiled htiled' htiled''
    refine ⟨0, 0, ?_⟩
    rw [add_zero, add_zero]
    exact ⟨(htiled.lends hmemory.platters).of_add, (htiled'.lends hmemory.code).of_add,
      (htiled''.lends hmemory.slots).of_add⟩
  fits place a co ha hco := ((ho.fitting place a ha).code co hco).room

theorem Worked.abundant (hw : Worked m₀ l₀ e others) (haccount : m₀.Account l₀ m₀ l₀)
    (hmemory : Abundant m₀) : Abundant e.host.memory := by
  obtain ⟨hplatters, hcode, hslots⟩ := (hw.owned haccount).account
  refine ⟨?_, ?_, ?_⟩
  · rw [(hplatters.traffic.tiled hplatters.tiled).2]
    exact hmemory.platters
  · rw [(hcode.traffic.tiled hcode.tiled).2]
    exact hmemory.code
  · rw [(hslots.traffic.tiled hslots.tiled).2]
    exact hmemory.slots

theorem account_mapped : Memory.mapped.Account 0 .mapped 0 :=
  Memory.account_of_traffic BlockSource.mapped_settled BlockSource.mapped_settled
    BlockSource.mapped_settled ⟨.refl, .refl, .refl⟩

theorem abundant_mapped : Abundant .mapped :=
  ⟨BlockSource.mapped_reliable, BlockSource.mapped_reliable, BlockSource.mapped_reliable⟩

/-- An engine that has been worked with in whatever way, and that can go on: there is memory, the
input arrives, the output is accepted. -/
structure Ready (e : Engine) (input : List UInt8) : Prop where
  history : ∃ m₀ l₀ others, m₀.Account l₀ m₀ l₀ ∧ Worked m₀ l₀ e others
  memory : Abundant e.host.memory
  delivers : e.host.input.Delivers input
  accepts : e.host.output.sink.Reliable ∧ e.host.output.fault = none
  going : e.host.stopped = false
  bounded : ∀ k a, e.machine.array? (.other k) = some a → a.words.size < Layout.limit

def plain (e : Engine) (input : List UInt8) : Interpreter where
  registers := e.machine.registers
  program := e.machine.running.words
  zeroLive := e.machine.zeroLive
  others := e.machine.otherWords
  finger := e.host.finger.toNat
  input := input
  output := e.host.output.emitted.toArray
  suspendOnEnd := e.host.suspendOnEnd

theorem Ready.poised (h : e.Ready input) : e.Poised (e.plain input) := by
  obtain ⟨m₀, l₀, others, haccount, hw⟩ := h.history
  have hh := hw.handles
  refine ⟨hw.coherent, ⟨(hw.owned haccount).supplied h.memory, ?_⟩, rfl⟩
  exact {
    registers_eq := rfl
    program_eq := rfl
    zeroLive_eq := rfl
    others_eq := rfl
    suspendOnEnd_eq := rfl
    delivers := h.delivers
    emits := ⟨h.accepts.1, h.accepts.2, rfl⟩
    free_pos := hh.pos
    free_le := by
      change e.host.minFree ≤ e.machine.otherWords.size + 1
      rw [Machine.size_otherWords]
      exact hh.le
    live := fun k hk hnone => by
      change e.machine.otherWords[k]?.join = none at hnone
      rw [Machine.join_getElem?_otherWords, Option.map_eq_none_iff] at hnone
      exact hh.live k hk hnone
    opened := hw.opened
    going := h.going }

theorem Poised.plain_eq {s : Interpreter} (hp : e.Poised s) : e.plain s.input = s := by
  obtain ⟨hregisters, hprogram, hzero, hothers, hemitted⟩ := hp.represents.agrees
  have hsuspend : e.host.suspendOnEnd = s.suspendOnEnd := hp.represents.shows.suspendOnEnd_eq
  rw [plain, hregisters, hprogram, hzero, hothers, hemitted, hsuspend, hp.finger_eq]

/-- A suspended engine that gets more input is ready. -/
theorem ready_of_suspended {program : Array Platter} {config : EngineConfig}
    {earlier : List UInt8} {reader : Reader} (hconfig : config.Reliable earlier)
    (hsuspend : config.suspendOnEnd = true)
    (haccount : (config.memory.getD .mapped).Account l₀ (config.memory.getD .mapped) l₀)
    (hmemory : Abundant (config.memory.getD .mapped))
    (hshort : (Interpreter.start program (earlier ++ input) true).Addressable) {e₀ e : Engine}
    {ticks : Nat} (hnew : new program config = (.done (), e₀))
    (hrun : e₀.run .none false ticks = (some (.failed .suspended), e))
    (hreader : reader.Delivers input) :
    Ready { e with host := { e.host with input := reader } } input := by
  obtain ⟨s, t, n, hp, -, -, -, -, hsim⟩ := exists_suspended hconfig hsuspend hshort hnew hrun
  have hsmall : program.size ≤ Memory.arrayLimit :=
    Nat.le_of_lt (Nat.lt_trans (Layout.words_lt_limit hshort.size_lt) (by decide))
  have hmade : Worked (config.memory.getD .mapped) l₀ (new program config).2 l₀ :=
    .new rfl hsmall (congrArg Prod.fst hnew)
  rw [hnew] at hmade
  have hrunning := hmade.run .none false ticks (by rw [hrun]; rintro _ ⟨⟩; trivial)
  rw [hrun] at hrunning
  have hemits := hp.represents.shows.emits
  exact {
    history := ⟨_, l₀, l₀, haccount, hrunning.supply reader⟩
    memory := hrunning.abundant haccount hmemory
    delivers := hreader
    accepts := ⟨hemits.reliable, hemits.fault_eq⟩
    going := hp.represents.shows.going
    bounded := fun k a ha => by
      refine hsim.bounded k a.words ?_
      rw [← show e.machine.otherWords = s.others from hp.represents.shows.others_eq,
        Machine.join_getElem?_otherWords]
      exact congrArg (Option.map PlatterArray.words) ha }

end Engine

end PlatterMachine
