import PlatterMachine.Engine.Basic
import PlatterMachine.Proofs.Arena.Traffic
import PlatterMachine.Proofs.HostCode.Patching

/-!
# Accounts of memory

An account tells by which traffic a memory got from one state to another, and which buffers it has
lent by then. Making and releasing arrays and code are entered in the account, whether the requests
to the block sources succeed or fail: an action that fails leaves no loan behind.
-/

namespace PlatterMachine

structure BlockSource.Settled (s : BlockSource) : Prop where
  answers : ∀ (k : Nat) (bytes : Int) (crash : Crash), 0 < bytes → bytes ≤ addressable →
    s.request k bytes ≠ .crashed crash
  accepts : ∀ k, s.refusal k = none

namespace BlockSource

theorem mapped_settled : mapped.Settled where
  answers k bytes crash _ _ := by
    rw [mapped]
    dsimp only
    split
    · nofun
    · split <;> nofun
  accepts _ := rfl

theorem heap_settled : heap.Settled where
  answers k bytes crash hpos hle := by
    rw [heap]
    dsimp only
    rw [if_pos ⟨Int.le_of_lt hpos, hle⟩]
    nofun
  accepts _ := rfl

theorem Settled.failing {s : BlockSource} (h : s.Settled) (requests : List Nat) :
    (s.failing requests []).Settled where
  answers k bytes crash hpos hle := by
    unfold BlockSource.failing
    dsimp only
    split
    · nofun
    · exact h.answers k bytes crash hpos hle
  accepts k := by
    rw [BlockSource.failing]
    exact h.accepts k

end BlockSource

namespace Arena

variable {α : Type} [Element α] {a₀ a : Arena α} {live₀ live : Multiset Buffer} {b : Buffer}

structure Account (a₀ : Arena α) (live₀ : Multiset Buffer) (a : Arena α)
    (live : Multiset Buffer) : Prop where
  settled : a₀.source.Settled
  tiled : a₀.Tiled live₀
  traffic : Traffic a₀ live₀ a live

theorem Account.ends_alloc [WordElement α] (h : Account a₀ live₀ a live) {n : Nat}
    (hn : n * Element.bytes α ≤ BlockSource.addressable) (zero : Bool) :
    (alloc n zero).ends
      (fun b a' => Account a₀ live₀ a' (b ::ₘ live) ∧ b.length = n ∧ n ≤ b.capacity)
      (fun _ a' => Account a₀ live₀ a' live) (fun _ _ => False) a := by
  obtain ⟨htiled, hsource⟩ := h.traffic.tiled h.tiled
  have hbytes : (n : Int) * Element.bytes α < signedLimit := by
    have hlt : BlockSource.addressable < signedLimit := by decide
    exact_mod_cast Nat.lt_of_le_of_lt hn hlt
  have hends := htiled.ends_alloc hbytes zero
  rcases hx : alloc n zero a with ⟨b | fault | crash, a'⟩ <;>
    simp only [Action.ends, hx] at hends ⊢
  · obtain ⟨-, htiled', hgrants⟩ := hends
    have hlength : b.length = n := hgrants.length
    refine ⟨⟨h.settled, h.tiled, ?_⟩, hlength, ?_⟩
    · have hgranted := h.traffic.granted hbytes (congrArg Prod.fst hx)
      rwa [hx] at hgranted
    · have hle := (htiled'.lent b (Multiset.mem_cons_self b live)).length_le
      rwa [hlength] at hle
  · refine ⟨h.settled, h.tiled, ?_⟩
    have hnot : ∀ b, (alloc n zero a).1 ≠ .done b := by
      intro b hb
      rw [hx] at hb
      cases hb
    have hdenied := h.traffic.denied hbytes hnot
    rwa [hx] at hdenied
  · have hblock : blockElems α * Element.bytes α ≤ BlockSource.addressable :=
      Nat.le_trans (Nat.div_mul_le_self _ _) (by decide)
    have hpos : 0 < asked α n * Element.bytes α :=
      Nat.mul_pos (Nat.lt_of_lt_of_le (blockElems_pos α) (Nat.le_max_right _ _))
        LawfulElement.bytes_pos
    have hle : asked α n * Element.bytes α ≤ BlockSource.addressable := by
      rw [asked, Nat.max_def]
      split
      · exact hblock
      · exact hn
    have hresponse :
        a₀.source.request a.requests (asked α n * Element.bytes α : Nat) = .crashed crash :=
      hsource ▸ hends.2
    refine h.settled.answers _ _ crash ?_ ?_ hresponse
    · exact_mod_cast hpos
    · exact_mod_cast hle

theorem Account.ends_release [WordElement α] (h : Account a₀ live₀ a (b ::ₘ live)) :
    (release b).ends (fun _ a' => Account a₀ live₀ a' live) (fun _ _ => False) (fun _ _ => False)
      a := by
  obtain ⟨htiled, hsource⟩ := h.traffic.tiled h.tiled
  have hends := htiled.ends_release
  rcases hx : release b a with ⟨_ | fault | crash, a'⟩ <;>
    simp only [Action.ends, hx] at hends ⊢
  · refine ⟨h.settled, h.tiled, ?_⟩
    have hreleased := h.traffic.released
    rwa [hx] at hreleased
  · exact hends.2 (hsource ▸ h.settled.accepts _)

end Arena

@[ext] structure Loans where
  platters : Multiset Buffer
  code : Multiset Buffer
  slots : Multiset Buffer

namespace Loans

instance : Zero Loans := ⟨⟨0, 0, 0⟩⟩

instance : Add Loans := ⟨fun l l' => ⟨l.platters + l'.platters, l.code + l'.code, l.slots + l'.slots⟩⟩

instance : AddCommMonoid Loans where
  add_assoc _ _ _ := Loans.ext (add_assoc _ _ _) (add_assoc _ _ _) (add_assoc _ _ _)
  zero_add _ := Loans.ext (zero_add _) (zero_add _) (zero_add _)
  add_zero _ := Loans.ext (add_zero _) (add_zero _) (add_zero _)
  add_comm _ _ := Loans.ext (add_comm _ _) (add_comm _ _) (add_comm _ _)
  nsmul := nsmulRec

def words (b : Buffer) : Loans := ⟨{b}, 0, 0⟩

theorem words_add (b : Buffer) (l : Loans) :
    words b + l = ⟨b ::ₘ l.platters, l.code, l.slots⟩ :=
  Loans.ext (Multiset.singleton_add b _) (zero_add _) (zero_add _)

end Loans

def CodeObject.loans (co : CodeObject) : Loans := ⟨0, {co.codeBuffer}, {co.tableBuffer}⟩

theorem CodeObject.loans_add (co : CodeObject) (l : Loans) :
    co.loans + l = ⟨l.platters, co.codeBuffer ::ₘ l.code, co.tableBuffer ::ₘ l.slots⟩ :=
  Loans.ext (zero_add _) (Multiset.singleton_add _ _) (Multiset.singleton_add _ _)

structure CodeObject.Fitting (co : CodeObject) : Prop where
  pos : 0 < co.code.size
  code_length : co.codeBuffer.length = co.code.size
  room : co.code.size ≤ co.codeBuffer.capacity
  table_length : co.tableBuffer.length = co.table.size

def PlatterArray.codeLoans (a : PlatterArray) : Loans := (a.code.map CodeObject.loans).getD 0

def PlatterArray.loans (a : PlatterArray) : Loans := .words a.buffer + a.codeLoans

namespace Memory

structure Traffic (m : Memory) (l : Loans) (m' : Memory) (l' : Loans) : Prop where
  platters : m.platters.Traffic l.platters m'.platters l'.platters
  code : m.code.Traffic l.code m'.code l'.code
  slots : m.slots.Traffic l.slots m'.slots l'.slots

structure Account (m₀ : Memory) (l₀ : Loans) (m : Memory) (l : Loans) : Prop where
  platters : m₀.platters.Account l₀.platters m.platters l.platters
  code : m₀.code.Account l₀.code m.code l.code
  slots : m₀.slots.Account l₀.slots m.slots l.slots

variable {m₀ m : Memory} {l₀ l : Loans}

theorem Account.traffic (h : Account m₀ l₀ m l) : Traffic m₀ l₀ m l :=
  ⟨h.platters.traffic, h.code.traffic, h.slots.traffic⟩

/-- An account is opened. -/
theorem account_of_traffic {platters code slots : BlockSource} (hplatters : platters.Settled)
    (hcode : code.Settled) (hslots : slots.Settled)
    (h : (ofSources platters code slots).Traffic 0 m l) : Account m l m l := by
  have hp := h.platters.tiled (Arena.tiled_new platters)
  have hc := h.code.tiled (Arena.tiled_new code)
  have hs := h.slots.tiled (Arena.tiled_new slots)
  exact ⟨⟨hp.2 ▸ hplatters, hp.1, .refl⟩, ⟨hc.2 ▸ hcode, hc.1, .refl⟩,
    ⟨hs.2 ▸ hslots, hs.1, .refl⟩⟩

/-- Others may use the memory too. -/
theorem Account.shared {others others' : Loans} {m' : Memory} (h : Account m₀ l₀ m (l + others))
    (ht : Traffic m others m' others') : Account m₀ l₀ m' (l + others') := by
  rw [add_comm] at h ⊢
  exact ⟨⟨h.platters.settled, h.platters.tiled, h.platters.traffic.trans (ht.platters.frame _)⟩,
    ⟨h.code.settled, h.code.tiled, h.code.traffic.trans (ht.code.frame _)⟩,
    ⟨h.slots.settled, h.slots.tiled, h.slots.traffic.trans (ht.slots.frame _)⟩⟩

/-- An array of so many words has code that can be addressed. -/
def arrayLimit : Nat := 1 <<< 44

theorem Account.ends_alloc (h : Account m₀ l₀ m l) {n : Nat} (hn : n ≤ arrayLimit)
    (zero : Bool) :
    (inPlatters (Arena.alloc n zero)).ends
      (fun b m' => Account m₀ l₀ m' (.words b + l) ∧ b.length = n)
      (fun _ m' => Account m₀ l₀ m' l) (fun _ _ => False) m := by
  have hbytes : n * Element.bytes UInt32 ≤ BlockSource.addressable := by
    change n * 4 ≤ 0x1000000000000
    change n ≤ 0x100000000000 at hn
    omega
  rw [inPlatters, Action.ends_within]
  refine (h.platters.ends_alloc hbytes zero).imp (fun b a _ hb => ?_) (fun _ a ha => ?_)
    fun _ _ hf => hf
  · rw [Loans.words_add]
    exact ⟨⟨hb.1, h.code, h.slots⟩, hb.2.1⟩
  · exact ⟨ha, h.code, h.slots⟩

/-- Code gets both of its buffers or none. -/
theorem Account.ends_generate (h : Account m₀ l₀ m l) {words : Array Platter}
    (hn : words.size ≤ arrayLimit) :
    (CodeObject.generate words).ends
      (fun co m' => Account m₀ l₀ m' (co.loans + l) ∧ co.Fitting)
      (fun _ m' => Account m₀ l₀ m' l) (fun _ _ => False) m := by
  have hsize := Layout.size_le words.toList
  rw [Array.length_toList] at hsize
  change _ ≤ 0x100000000000 at hn
  have hcode : Layout.size words.toList * Element.bytes UInt8 ≤ BlockSource.addressable := by
    change _ * 1 ≤ 0x1000000000000
    omega
  have hslots : words.size * Element.bytes UInt32 ≤ BlockSource.addressable := by
    change _ * 4 ≤ 0x1000000000000
    omega
  rw [CodeObject.generate_eq, Action.ends_bind, inCode, Action.ends_within]
  refine (h.code.ends_alloc hcode false).imp (fun codeBuffer arena _ ⟨hlent, hlength, hcap⟩ => ?_)
    (fun _ arena hkept => ⟨h.platters, hkept, h.slots⟩) fun _ _ hf => hf
  rw [Action.ends_bind]
  apply Action.ends.cleaningUp
  rw [inSlots, Action.ends_within]
  refine (h.slots.ends_alloc hslots false).imp (fun tableBuffer arena' _ ⟨hlent', hlength', _⟩ => ?_)
    (fun _ arena' hkept => ?_) fun _ _ hf => hf
  · rw [Action.ends_of_done (Action.pure_apply _ _), CodeObject.loans_add]
    have hcode : (Layout.code words.toList).toArray.size = Layout.size words.toList :=
      List.size_toArray
    refine ⟨⟨h.platters, hlent, hlent'⟩, ?_, hlength.trans hcode.symm, hcode ▸ hcap, ?_⟩
    · exact hcode ▸ Nat.lt_of_lt_of_le (by omega)
        (Layout.address_add_eight_le words.toList (Nat.zero_le _))
    · simp [hlength', Layout.table]
  · -- no table can be had, and the code buffer goes back
    rw [inCode, Action.ends_within]
    exact hlent.ends_release.imp (fun _ _ _ hback => ⟨h.platters, hback, hkept⟩)
      (fun _ _ hf => hf.elim) fun _ _ hf => hf

theorem Account.ends_releaseCode {a : PlatterArray} (h : Account m₀ l₀ m (a.codeLoans + l)) :
    a.releaseCode.ends (fun _ m' => Account m₀ l₀ m' l) (fun _ _ => False) (fun _ _ => False)
      m := by
  unfold PlatterArray.releaseCode
  unfold PlatterArray.codeLoans at h
  cases hco : a.code with
  | none =>
    rw [hco] at h
    exact zero_add l ▸ h
  | some co =>
    rw [hco] at h
    rw [Option.map_some, Option.getD_some, CodeObject.loans_add] at h
    dsimp only
    rw [CodeObject.release, Action.ends_bind, inCode, Action.ends_within]
    refine h.code.ends_release.imp (fun _ arena _ hcode' => ?_) (fun _ _ hf => hf)
      fun _ _ hf => hf
    rw [inSlots, Action.ends_within]
    exact h.slots.ends_release.imp (fun _ arena' _ hslots' => ⟨h.platters, hcode', hslots'⟩)
      (fun _ _ hf => hf) fun _ _ hf => hf

theorem Account.ends_release {a : PlatterArray} (h : Account m₀ l₀ m (a.loans + l)) :
    a.release.ends (fun _ m' => Account m₀ l₀ m' l) (fun _ _ => False) (fun _ _ => False) m := by
  rw [PlatterArray.loans, add_comm (Loans.words _), add_assoc] at h
  rw [PlatterArray.release, Action.ends_bind]
  refine h.ends_releaseCode.imp (fun _ m' _ h' => ?_) (fun _ _ hf => hf) fun _ _ hf => hf
  rw [Loans.words_add] at h'
  rw [inPlatters, Action.ends_within]
  exact h'.platters.ends_release.imp (fun _ arena _ hp => ⟨hp, h'.code, h'.slots⟩)
    (fun _ _ hf => hf) fun _ _ hf => hf

/-- All arrays of an engine are released, one after the other. -/
theorem Account.ends_releaseAll {arrays : List PlatterArray}
    (h : Account m₀ l₀ m ((arrays.map PlatterArray.loans).sum + l)) :
    (arrays.forM PlatterArray.release).ends (fun _ m' => Account m₀ l₀ m' l) (fun _ _ => False)
      (fun _ _ => False) m := by
  induction arrays generalizing m with
  | nil => exact zero_add l ▸ h
  | cons a arrays ih =>
    rw [List.map_cons, List.sum_cons, add_assoc] at h
    change Action.ends (a.release >>= fun _ => arrays.forM PlatterArray.release) _ _ _ m
    rw [Action.ends_bind]
    exact h.ends_release.imp (fun _ m' _ h' => ih h') (fun _ _ hf => hf) fun _ _ hf => hf

end Memory

end PlatterMachine
