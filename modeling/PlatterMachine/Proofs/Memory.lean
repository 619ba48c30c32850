import Mathlib.Data.Multiset.Bind
import PlatterMachine.Engine.Basic
import PlatterMachine.Proofs.Arena.Lending
import PlatterMachine.Proofs.HostCode.Patching

/-!
# Lending buffers for arrays and code

The memory of an engine lends buffers of words, and for each code object a buffer of bytes and one
of table slots. What is short enough to have code is short enough to get memory.
-/

namespace PlatterMachine

def CodeObject.buffers (co : CodeObject) : Buffer × Buffer := (co.codeBuffer, co.tableBuffer)

def PlatterArray.codes (a : PlatterArray) : Multiset (Buffer × Buffer) :=
  ((a.code.map CodeObject.buffers).toList : Multiset (Buffer × Buffer))

theorem PlatterArray.codes_of_none {a : PlatterArray} (h : a.code = none) : a.codes = 0 := by
  rw [codes, h]
  rfl

theorem PlatterArray.codes_of_some {a : PlatterArray} {co : CodeObject} (h : a.code = some co) :
    a.codes = {co.buffers} := by
  rw [codes, h]
  rfl

namespace Memory

variable {memory : Memory} {platters : Multiset Buffer} {codes : Multiset (Buffer × Buffer)}

structure Lends (memory : Memory) (platters : Multiset Buffer)
    (codes : Multiset (Buffer × Buffer)) : Prop where
  platters : memory.platters.Lends platters
  code : memory.code.Lends (codes.map Prod.fst)
  slots : memory.slots.Lends (codes.map Prod.snd)

theorem lends_mapped : mapped.Lends 0 0 where
  platters := Arena.lends_new BlockSource.mapped_reliable
  code := Arena.lends_new BlockSource.mapped_reliable
  slots := Arena.lends_new BlockSource.mapped_reliable

theorem Lends.wp_alloc (h : memory.Lends platters codes) {n : Nat} (hn : n < Layout.limit)
    (zero : Bool) :
    (inPlatters (Arena.alloc n zero)).wp
      (fun b memory' => memory'.Lends (b ::ₘ platters) codes) (fun _ => False) memory := by
  have hbytes : n * Element.bytes UInt32 < BlockSource.mappable := by
    change n * 4 < 0x800000000000
    simp only [Layout.limit] at hn
    omega
  rw [inPlatters, Action.wp_within]
  exact (h.platters.wp_alloc hbytes zero).imp (fun b a _ hb => ⟨hb.1, h.code, h.slots⟩)
    fun _ hf => hf

theorem Lends.wp_generate (h : memory.Lends platters codes) {words : Array Platter}
    (hsize : Layout.size words.toList < Layout.limit) :
    (CodeObject.generate words).wp
      (fun co memory' => memory'.Lends platters (co.buffers ::ₘ codes) ∧
        co.code.size ≤ co.codeBuffer.capacity) (fun _ => False) memory := by
  have hlen := Layout.words_lt_limit hsize
  have hcode : Layout.size words.toList * Element.bytes UInt8 < BlockSource.mappable := by
    change _ * 1 < 0x800000000000
    simp only [Layout.limit] at hsize
    omega
  have hslots : words.size * Element.bytes UInt32 < BlockSource.mappable := by
    change _ * 4 < 0x800000000000
    simp only [Layout.limit] at hlen
    omega
  rw [CodeObject.generate_eq, Action.wp_bind, inCode, Action.wp_within]
  refine (h.code.wp_alloc hcode false).imp (fun codeBuffer arena _ halloc => ?_) fun _ hf => hf
  obtain ⟨hlent, hcap⟩ := halloc
  rw [Action.wp_bind]
  apply Action.wp.cleaningUp
  rw [inSlots, Action.wp_within]
  refine (h.slots.wp_alloc hslots false).imp (fun tableBuffer arena' _ halloc => ?_)
    fun _ hf => hf.elim
  obtain ⟨hlent', -⟩ := halloc
  rw [Action.wp_pure]
  refine ⟨⟨h.platters, ?_, ?_⟩, ?_⟩
  · rw [Multiset.map_cons]
    exact hlent
  · rw [Multiset.map_cons]
    exact hlent'
  · simpa [Layout.size] using hcap

theorem Lends.wp_releaseCode {a : PlatterArray} (h : memory.Lends platters (a.codes + codes)) :
    a.releaseCode.wp (fun _ memory' => memory'.Lends platters codes) (fun _ => False) memory := by
  unfold PlatterArray.releaseCode
  cases hco : a.code with
  | none =>
    rw [PlatterArray.codes_of_none hco, zero_add] at h
    exact h
  | some co =>
    rw [PlatterArray.codes_of_some hco, Multiset.singleton_add] at h
    have hcode := h.code
    have hslots := h.slots
    rw [Multiset.map_cons] at hcode hslots
    dsimp only
    rw [CodeObject.release, Action.wp_bind, inCode, Action.wp_within]
    refine hcode.wp_release.imp (fun _ arena _ hcode' => ?_) fun _ hf => hf
    rw [inSlots, Action.wp_within]
    exact hslots.wp_release.imp (fun _ arena' _ hslots' => ⟨h.platters, hcode', hslots'⟩)
      fun _ hf => hf

theorem Lends.wp_release {a : PlatterArray}
    (h : memory.Lends (a.buffer ::ₘ platters) (a.codes + codes)) :
    a.release.wp (fun _ memory' => memory'.Lends platters codes) (fun _ => False) memory := by
  rw [PlatterArray.release, Action.wp_bind]
  refine h.wp_releaseCode.imp (fun _ memory' _ h' => ?_) fun _ hf => hf
  rw [inPlatters, Action.wp_within]
  exact h'.platters.wp_release.imp (fun _ arena _ hp => ⟨hp, h'.code, h'.slots⟩) fun _ hf => hf

/-- The memory has lent these buffers, and perhaps more of which nothing is known. -/
def Covers (memory : Memory) (platters : Multiset Buffer)
    (codes : Multiset (Buffer × Buffer)) : Prop :=
  ∃ platters' codes', memory.Lends (platters + platters') (codes + codes')

theorem Covers.wp_alloc (h : memory.Covers platters codes) {n : Nat} (hn : n < Layout.limit)
    (zero : Bool) :
    (inPlatters (Arena.alloc n zero)).wp
      (fun b memory' => memory'.Covers (b ::ₘ platters) codes) (fun _ => False) memory := by
  obtain ⟨platters', codes', hlends⟩ := h
  refine (hlends.wp_alloc hn zero).imp (fun b memory' _ hlends' => ?_) fun _ hf => hf
  exact ⟨platters', codes', by rwa [Multiset.cons_add]⟩

theorem Covers.wp_generate (h : memory.Covers platters codes) {words : Array Platter}
    (hsize : Layout.size words.toList < Layout.limit) :
    (CodeObject.generate words).wp
      (fun co memory' => memory'.Covers platters (co.buffers ::ₘ codes) ∧
        co.code.size ≤ co.codeBuffer.capacity) (fun _ => False) memory := by
  obtain ⟨platters', codes', hlends⟩ := h
  refine (hlends.wp_generate hsize).imp (fun co memory' _ ⟨hlends', hcap⟩ => ?_) fun _ hf => hf
  exact ⟨⟨platters', codes', by rwa [Multiset.cons_add]⟩, hcap⟩

theorem Covers.wp_releaseCode {a : PlatterArray} (h : memory.Covers platters (a.codes + codes)) :
    a.releaseCode.wp (fun _ memory' => memory'.Covers platters codes) (fun _ => False) memory := by
  obtain ⟨platters', codes', hlends⟩ := h
  rw [add_assoc] at hlends
  exact hlends.wp_releaseCode.imp (fun _ _ _ hlends' => ⟨platters', codes', hlends'⟩)
    fun _ hf => hf

theorem Covers.wp_release {a : PlatterArray}
    (h : memory.Covers (a.buffer ::ₘ platters) (a.codes + codes)) :
    a.release.wp (fun _ memory' => memory'.Covers platters codes) (fun _ => False) memory := by
  obtain ⟨platters', codes', hlends⟩ := h
  rw [add_assoc, Multiset.cons_add] at hlends
  exact hlends.wp_release.imp (fun _ _ _ hlends' => ⟨platters', codes', hlends'⟩) fun _ hf => hf

theorem covers_mapped : mapped.Covers 0 0 := ⟨0, 0, lends_mapped⟩

end Memory

end PlatterMachine
