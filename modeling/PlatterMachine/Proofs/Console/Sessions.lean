import PlatterMachine.Console.Session
import PlatterMachine.Proofs.Arena.Returns
import PlatterMachine.Proofs.Engine.Lifetime
import PlatterMachine.Proofs.Engine.Quiet
import PlatterMachine.Proofs.Engine.Undisturbed
import PlatterMachine.Proofs.Stream.Script

/-!
# Sessions are local runs

A session reads the version off its stream and then runs a machine over what is left of it. Its
machine goes tick by tick along with any other machine of the same program whose reader has the same
answers to come, so that the stream gets what that machine writes, tick by tick and whether it ends
or not. Sessions share the program of their server. A machine writes only to the buffers of its
arrays, which lie in memory that it has obtained, so the program is at the end what it was.
-/

namespace PlatterMachine

structure Stream.Undisturbed (s : Stream) : Prop where
  source : s.source.undisturbed = s.source
  sink : s.sink.undisturbed = s.sink

theorem Source.await_snd_undisturbed {s : Source} (h : s.undisturbed = s) (n : Nat) :
    (s.await n).2.undisturbed = (s.await n).2 := by
  have hawait : s.undisturbed.await n = ((s.await n).1, (s.await n).2.undisturbed) :=
    awaitSegments_undisturbed n s.cancelled s.segments
  rw [h] at hawait
  exact (congrArg Prod.snd hawait).symm

namespace Reader

variable {r : Reader}

theorem readByte_snd_undisturbed (h : r.undisturbed = r) :
    r.readByte.2.undisturbed = r.readByte.2 := by
  have hread := r.readByte_undisturbed
  rw [h] at hread
  exact (congrArg Prod.snd hread).symm

theorem not_cancelled (h : r.undisturbed = r) : r.source.cancelled = false :=
  (congrArg (fun r => r.source.cancelled) h).symm

end Reader

namespace Writer

variable {w : Writer}

theorem flush_snd_undisturbed (h : w.undisturbed = w) : w.flush.2.undisturbed = w.flush.2 := by
  have hflush := w.flush_undisturbed
  rw [h] at hflush
  exact (congrArg Prod.snd hflush).symm

theorem writeByte_snd_undisturbed (h : w.undisturbed = w) (b : UInt8) :
    (w.writeByte b).2.undisturbed = (w.writeByte b).2 := by
  have hwrite := w.writeByte_undisturbed b
  rw [h] at hwrite
  exact (congrArg Prod.snd hwrite).symm

theorem not_cancelled (h : w.undisturbed = w) : w.sink.cancelled = false :=
  (congrArg (fun w => w.sink.cancelled) h).symm

end Writer

theorem Host.renew_eq {h : Host} (hr : h.input.undisturbed = h.input)
    (hw : h.output.undisturbed = h.output) : h.renew = h := by
  have hsource := Reader.not_cancelled hr
  have hsink := Writer.not_cancelled hw
  obtain ⟨minFree, donor, finger, memory, ownsMemory, ⟨⟨segments, cancelled⟩, buffer⟩,
    ⟨⟨failAt, failTakes, shortAt, shortTakes, cancelAt, discards, writes, accepted, cancelled'⟩, output,
    fault⟩, logs,
    events, suspendOnEnd, stopped, closed, stats⟩ := h
  cases hsource
  cases hsink
  rfl

namespace Coupling

/-- Engines whose readers have the same answers to come and which write to equal sinks; nothing
cancels either of them. -/
def alike : Coupling where
  Reads r r' := r'.script = r.script ∧ r.undisturbed = r ∧ r'.undisturbed = r'
  Writes w w' := w' = w ∧ w.undisturbed = w
  SameRecords := False
  readByte := by
    rintro r r' ⟨hscript, hr, hr'⟩
    obtain ⟨hanswer, hnext⟩ := r.readByte_script
    obtain ⟨hanswer', hnext'⟩ := r'.readByte_script
    rw [hscript] at hanswer' hnext'
    exact ⟨hanswer'.trans hanswer.symm, hnext'.trans hnext.symm,
      Reader.readByte_snd_undisturbed hr, Reader.readByte_snd_undisturbed hr'⟩
  fault_eq := by
    rintro w _ ⟨rfl, -⟩
    rfl
  flush := by
    rintro w _ ⟨rfl, hw⟩
    exact ⟨rfl, rfl, Writer.flush_snd_undisturbed hw⟩
  writeByte := by
    rintro w _ b ⟨rfl, hw⟩
    exact ⟨rfl, rfl, Writer.writeByte_snd_undisturbed hw b⟩

theorem steadfast_alike : alike.Steadfast where
  cancelled_eq := by
    rintro _ _ ⟨⟨-, hr, hr'⟩, ⟨rfl, hw⟩, -⟩
    simp only [Host.cancelled, Reader.not_cancelled hr, Reader.not_cancelled hr']
  renew := by
    rintro _ _ @⟨m, h, input, output, logs, events, ⟨hscript, hr, hr'⟩, ⟨rfl, hw⟩, hrecords⟩
    dsimp only
    rw [Host.renew_eq hr hw, Host.renew_eq (h := { h with input, logs, events }) hr' hw]
    exact .mk ⟨hscript, hr, hr'⟩ ⟨rfl, hw⟩ hrecords

end Coupling

/-- What a machine with `program` has come to after so many ticks, if it has ended, and its sink. -/
def Engine.localRun (program : Array Platter) (config : EngineConfig) (ticks : Nat) :
    Option (Outcome Unit) × Sink :=
  match new program config with
  | (.done (), e) =>
    let (outcome, e) := e.run .none false ticks
    (outcome, e.host.output.sink)
  | (outcome, _) => (some outcome, config.output)

namespace Session

variable {program : Array Platter} {s : Stream}

structure Mirrors (config : EngineConfig) (input : List (Except Fault UInt8)) (sink : Sink) :
    Prop where
  undisturbed : config.input.undisturbed = config.input
  script_eq : config.input.script = input
  output_eq : config.output = sink
  memory_eq : config.memory = none
  suspends_eq : config.suspendOnEnd = false

theorem Mirrors.couples {config : EngineConfig} {input : List (Except Fault UInt8)}
    (h : Mirrors config input s.sink) (hs : s.Undisturbed)
    (hinput : Source.script 0 s.source.segments = input) :
    Coupling.alike.Couples (Engine.blank config)
      (Engine.blank { input := ⟨s.source, []⟩, output := s.sink, logs := true }) := by
  obtain ⟨reader, sink, memory, suspends, logs⟩ := config
  obtain ⟨hundisturbed, hscript, rfl, rfl, rfl⟩ := h
  refine .mk ⟨hinput.trans hscript.symm, hundisturbed, ?_⟩ ⟨rfl, ?_⟩ nofun
  · exact congrArg (fun source => (⟨source, []⟩ : Reader)) hs.source
  · exact congrArg (fun sink => (⟨sink, #[], none⟩ : Writer)) hs.sink

/-- At every tick the session has ended when a machine has that mirrors its own, and has written what
that machine has. -/
theorem runMachine_eq (program : Array Platter) (ticks : Nat) {config : EngineConfig}
    {input : List (Except Fault UInt8)} (h : Mirrors config input s.sink) (hs : s.Undisturbed)
    (hinput : Source.script 0 s.source.segments = input) :
    (runMachine program ticks s).ended = (Engine.localRun program config ticks).1.isSome ∧
      (runMachine program ticks s).stream.sink = (Engine.localRun program config ticks).2 := by
  obtain ⟨hanswer, hcouples⟩ := Coupling.respects_start program _ _ (h.couples hs hinput)
  unfold runMachine machine Engine.localRun Engine.new
  rcases hl : Engine.start program (Engine.blank config) with ⟨_ | fault | crash, e⟩ <;>
    rcases hr : Engine.start program (Engine.blank
      { input := ⟨s.source, []⟩, output := s.sink, logs := true }) with ⟨o', e'⟩ <;>
    rw [hl, hr] at hanswer hcouples <;> cases hanswer
  · have hcancelled : s.source.cancelled = false :=
      (congrArg Source.cancelled hs.source).symm
    obtain ⟨hend, hafter⟩ := Coupling.steadfast_alike.run hcouples .none false ticks
    dsimp only
    rw [hcancelled]
    rcases hrun : e.run .none false ticks with ⟨o, t⟩
    rcases hrun' : e'.run .none false ticks with ⟨o', t'⟩
    rw [hrun, hrun'] at hend hafter
    cases hend
    have hsink : t'.host.output = t.host.output := by
      obtain ⟨-, ⟨rfl, -⟩, -⟩ := hafter
      rfl
    refine ⟨rfl, ?_⟩
    dsimp only
    split
    · rw [(Engine.quiet_close t').output_eq, hsink]
    · rw [hsink]
  · exact ⟨rfl, h.output_eq.symm⟩
  · exact ⟨rfl, h.output_eq.symm⟩

theorem closes_runMachine (program : Array Platter) (ticks : Nat) (s : Stream) :
    (runMachine program ticks s).stream.closes = s.closes := by
  unfold runMachine
  split <;> rfl

def asked (s : Stream) : List (Except Fault UInt8) := Source.patientScript s.source.segments

def afterVersion (s : Stream) : Stream := { s with source := (s.source.await 1).2 }

theorem undisturbed_afterVersion (hs : s.Undisturbed) : (afterVersion s).Undisturbed :=
  ⟨Source.await_snd_undisturbed hs.source 1, hs.sink⟩

theorem told_version (s : Stream) : Source.ToldFirst (asked s) (s.source.await 1) :=
  Source.told_await_one s.source.segments s.source.cancelled

/-- Behind the right version, a machine runs over the rest of the stream. -/
theorem serve_of_version {input : List (Except Fault UInt8)}
    (h : asked s = .ok protocolVersion :: input) :
    Source.script 0 (afterVersion s).source.segments = input ∧
      ∀ program id ticks, (serve program id ticks s).ended =
          (runMachine program ticks (afterVersion s)).ended ∧
        (serve program id ticks s).stream =
          if (runMachine program ticks (afterVersion s)).ended then
            (runMachine program ticks (afterVersion s)).stream.close
          else (runMachine program ticks (afterVersion s)).stream := by
  have htold := told_version s
  rw [h] at htold
  unfold serve afterVersion
  generalize s.source.await 1 = r at htold ⊢
  cases htold
  exact ⟨rfl, fun _ _ _ => ⟨rfl, rfl⟩⟩

/-- Without it there is no machine, the stream is closed, and all that remains is a record. -/
theorem serve_of_not_version (id : String)
    (h : ∀ input, asked s ≠ .ok protocolVersion :: input) :
    ∃ record, (∀ program ticks, serve program id ticks s =
      ⟨(afterVersion s).close, [record], true⟩) ∧ ∀ program ticks, stages program ticks s = [] := by
  have htold := told_version s
  unfold serve stages afterVersion
  generalize asked s = answers at htold h
  generalize s.source.await 1 = r at htold ⊢
  cases htold with
  | ended source => exact ⟨_, fun _ _ => rfl, fun _ _ => rfl⟩
  | fault fault later source => exact ⟨_, fun _ _ => rfl, fun _ _ => rfl⟩
  | byte v source =>
    have hv : v ≠ protocolVersion := by
      rintro rfl
      exact h _ rfl
    simp only [hv, if_false]
    exact ⟨_, fun _ _ => rfl, fun _ _ => trivial⟩

/-- What the server owes to a visit, when its machine has had its ticks. -/
structure Fulfils (program : Array Platter) (v : Visit) (served : Served) : Prop where
  /-- Behind the right version, the stream has got what a machine has written that reads the rest. -/
  local_run : ∀ input, asked v.stream = .ok protocolVersion :: input →
    ∀ config, Mirrors config input v.stream.sink →
      served.ended = (Engine.localRun program config v.ticks).1.isSome ∧
        served.stream.sink = (Engine.localRun program config v.ticks).2
  /-- However a stream of bytes is cut into segments, the machine reads those behind the version. -/
  segmented : ∀ bytes, (∀ segment ∈ v.stream.source.segments, ∃ data, segment = .data data) →
    Source.payload v.stream.source.segments = protocolVersion :: bytes →
      ∀ config : EngineConfig,
        config = { input := ⟨.ofBytes bytes, []⟩, output := v.stream.sink } →
        served.ended = (Engine.localRun program config v.ticks).1.isSome ∧
          served.stream.sink = (Engine.localRun program config v.ticks).2
  /-- Without it nothing is written and no machine made, and the program does not matter. -/
  refused : (∀ input, asked v.stream ≠ .ok protocolVersion :: input) →
    (∃ source record,
      served = ⟨⟨source, v.stream.sink, v.stream.closes + 1⟩, [record], true⟩) ∧
    ∀ program' ticks', serve program' v.id ticks' v.stream = served ∧
      stages program' ticks' v.stream = []
  closed : served.stream.closes = v.stream.closes + if served.ended then 1 else 0

theorem serve_eq {v : Visit} (hv : v.stream.Undisturbed) {input : List (Except Fault UInt8)}
    (hversion : asked v.stream = .ok protocolVersion :: input) {config : EngineConfig}
    (hmirrors : Mirrors config input v.stream.sink) :
    (serve program v.id v.ticks v.stream).ended =
        (Engine.localRun program config v.ticks).1.isSome ∧
      (serve program v.id v.ticks v.stream).stream.sink =
        (Engine.localRun program config v.ticks).2 := by
  obtain ⟨hinput, hserve⟩ := serve_of_version hversion
  obtain ⟨hended, hstream⟩ := hserve program v.id v.ticks
  obtain ⟨hended', hsink⟩ :=
    runMachine_eq (s := afterVersion v.stream) program v.ticks hmirrors
      (undisturbed_afterVersion hv) hinput
  refine ⟨hended.trans hended', ?_⟩
  rw [hstream]
  split <;> exact hsink

theorem script_ofBytes (bytes : List UInt8) :
    Reader.script ⟨.ofBytes bytes, []⟩ = bytes.map .ok := by
  have hscript : Source.script 0 [.data bytes] = (Source.payload [.data bytes]).map .ok :=
    Source.script_data (List.forall_mem_singleton.mpr ⟨bytes, rfl⟩)
  rwa [Source.payload, Source.payload, List.append_nil] at hscript

theorem fulfils_serve (program : Array Platter) (v : Visit) (hv : v.stream.Undisturbed) :
    Fulfils program v (serve program v.id v.ticks v.stream) where
  local_run input hversion config hmirrors := serve_eq hv hversion hmirrors
  segmented bytes hdata hpayload config hconfig := by
    have hversion : asked v.stream = .ok protocolVersion :: bytes.map .ok := by
      rw [asked, Source.patientScript_data hdata, hpayload]
      rfl
    subst hconfig
    exact serve_eq hv hversion ⟨rfl, script_ofBytes bytes, rfl, rfl, rfl⟩
  refused hversion := by
    obtain ⟨record, hserve, hstages⟩ := serve_of_not_version v.id hversion
    exact ⟨⟨_, record, hserve _ _⟩, fun _ _ => ⟨(hserve _ _).trans (hserve _ _).symm, hstages _ _⟩⟩
  closed := by
    by_cases hversion : ∃ input, asked v.stream = .ok protocolVersion :: input
    · obtain ⟨input, hversion⟩ := hversion
      obtain ⟨hended, hstream⟩ := (serve_of_version hversion).2 program v.id v.ticks
      have hcloses := closes_runMachine program v.ticks (afterVersion v.stream)
      rw [hended, hstream]
      split
      · exact congrArg (· + 1) hcloses
      · exact hcloses
    · obtain ⟨record, hserve, -⟩ := serve_of_not_version v.id (not_exists.mp hversion)
      rw [hserve]
      rfl

/-- What a visit's stream gets depends on the program and on that stream alone. -/
theorem serve_congr {v v' : Visit} (hv : v.stream.Undisturbed) (hv' : v'.stream.Undisturbed)
    (hasked : asked v'.stream = asked v.stream) (hsink : v'.stream.sink = v.stream.sink)
    (hticks : v'.ticks = v.ticks) :
    (serve program v'.id v'.ticks v'.stream).ended =
        (serve program v.id v.ticks v.stream).ended ∧
      (serve program v'.id v'.ticks v'.stream).stream.sink =
        (serve program v.id v.ticks v.stream).stream.sink := by
  have hserved := fulfils_serve program v hv
  have hserved' := fulfils_serve program v' hv'
  by_cases hversion : ∃ input, asked v.stream = .ok protocolVersion :: input
  · obtain ⟨input, hversion⟩ := hversion
    obtain ⟨hinput, -⟩ := serve_of_version hversion
    -- both are the run of one machine, for which that of the first session will do
    let config : EngineConfig :=
      { input := ⟨(afterVersion v.stream).source, []⟩, output := v.stream.sink }
    have hundisturbed : config.input.undisturbed = config.input :=
      congrArg (fun source => (⟨source, []⟩ : Reader)) (undisturbed_afterVersion hv).source
    obtain ⟨hended, hout⟩ :=
      hserved.local_run input hversion config ⟨hundisturbed, hinput, rfl, rfl, rfl⟩
    obtain ⟨hended', hout'⟩ := hserved'.local_run input (hasked.trans hversion) config
      ⟨hundisturbed, hinput, hsink.symm, rfl, rfl⟩
    rw [hended, hended', hout, hout', hticks]
    exact ⟨rfl, rfl⟩
  · obtain ⟨⟨_, _, hresult⟩, -⟩ := hserved.refused (not_exists.mp hversion)
    obtain ⟨⟨_, _, hresult'⟩, -⟩ := hserved'.refused (by rw [hasked]; exact not_exists.mp hversion)
    rw [hresult, hresult']
    exact ⟨rfl, hsink⟩

end Session

theorem Arena.Tiled.region_mem_kept {α : Type} [Element α] {a : Arena α} {live : Multiset Buffer}
    (h : a.Tiled live) {b : Buffer} (hb : b ∈ live) (hpos : 0 < b.length) : b.region ∈ a.kept := by
  rw [Arena.kept, List.mem_append, Array.mem_toList_iff]
  exact (h.keeps_of_holds hb (h.holds_of_lt hb hpos)).imp And.left And.left

/-- Where an engine has words, it has obtained the memory. -/
theorem Engine.Owned.region_mem_kept {m₀ : Memory} {l₀ others : Loans} {e : Engine}
    (ho : e.Owned m₀ l₀ others) {a : PlatterArray} (ha : a ∈ e.arrays) (hpos : 0 < a.words.size) :
    a.buffer.region ∈ e.host.memory.platters.kept := by
  obtain ⟨place, hplace⟩ := exists_array?_of_mem_arrays ha
  have haccount := ho.account_holdings.platters
  rw [holdings, Loans.sum_eq] at haccount
  refine (haccount.traffic.tiled haccount.tiled).1.region_mem_kept ?_
    ((ho.fitting place a hplace).length_eq ▸ hpos)
  exact Multiset.mem_add.mpr (.inl (Multiset.mem_coe.mpr (List.mem_map_of_mem ha)))

namespace Server

open Session

variable {server : Server}

/-- Nothing that the machine of the visit has obtained lies over the program. -/
def Apart (server : Server) (v : Visit) : Prop :=
  ∀ e ∈ stages server.program v.ticks v.stream, ∀ region ∈ e.host.memory.platters.kept,
    v.place region ≠ server.region

theorem under_of_owned {m₀ : Memory} {l₀ others : Loans} {e : Engine} {place : Nat → Nat}
    (ho : e.Owned m₀ l₀ others)
    (hapart : ∀ region ∈ e.host.memory.platters.kept, place region ≠ server.region) :
    server.under place e = server := by
  have hnone (i : Nat) : e.arrays.findSome? (·.wordAt? place server.region i) = none := by
    refine List.findSome?_eq_none_iff.mpr fun a ha => ?_
    rw [PlatterArray.wordAt?]
    split
    · rename_i hplace
      refine Array.getElem?_eq_none (Nat.le_of_not_lt fun hlt => ?_)
      exact hapart _ (ho.region_mem_kept ha (Nat.zero_lt_of_lt hlt)) hplace.1
    · rfl
  have hprogram : (server.program.mapIdx fun _ word => word) = server.program :=
    Array.ext (by simp) (by simp)
  simp only [under, hnone, Option.getD_none, hprogram]

/-- At every stage the machine of a session owns the buffers of its arrays. -/
theorem owned_of_mem_stages {program : Array Platter} (hsize : program.size ≤ Memory.arrayLimit)
    {ticks : Nat} {s : Stream} {e : Engine} (he : e ∈ stages program ticks s) :
    e.Owned .mapped 0 0 := by
  have hsettled := BlockSource.mapped_settled
  have haccount : Memory.mapped.Account 0 .mapped 0 :=
    Memory.account_of_traffic hsettled hsettled hsettled ⟨.refl, .refl, .refl⟩
  unfold stages at he
  split at he
  · rename_i v source hawait
    split at he
    · split at he
      · rename_i e₀ hnew
        have hdone := congrArg Prod.fst hnew
        have hcoherent := Engine.new_coherent hdone
        have howned : (machine program { s with source }).2.Owned .mapped 0 0 := by
          let config : EngineConfig := { input := ⟨source, []⟩, output := s.sink, logs := true }
          have hmemory : config.memory.getD .mapped = .mapped := rfl
          rcases Engine.new_owned hmemory haccount hsize with ⟨-, howned⟩ | ⟨fault, hfault, -⟩
          · exact howned
          · cases hdone.symm.trans hfault
        replace hcoherent : (machine program { s with source }).2.Coherent := hcoherent
        rw [hnew] at hcoherent howned
        rcases List.mem_cons.mp he with rfl | he
        · exact howned
        · obtain ⟨k, -, rfl⟩ := List.mem_map.mp he
          exact howned.run hcoherent .none source.cancelled k
      · cases he
    · cases he
  · cases he

theorem serve_snd (hsize : server.program.size ≤ Memory.arrayLimit) {v : Visit}
    (hapart : server.Apart v) : (server.serve v).2 = server := by
  have hstages (es : List Engine) (hes : ∀ e ∈ es, e ∈ stages server.program v.ticks v.stream) :
      es.foldl (·.under v.place) server = server := by
    induction es with
    | nil => rfl
    | cons e es ih =>
      obtain ⟨he, hes⟩ := List.forall_mem_cons.mp hes
      rw [List.foldl_cons, under_of_owned (owned_of_mem_stages hsize he) (hapart e he), ih hes]
  exact hstages _ fun _ he => he

/-- Every session gets the program that the server has from the start. -/
theorem serveAll_eq (hsize : server.program.size ≤ Memory.arrayLimit) {visits : List Visit}
    (hapart : ∀ v ∈ visits, server.Apart v) :
    server.serveAll visits =
      (visits.map fun v => Session.serve server.program v.id v.ticks v.stream, server) := by
  induction visits with
  | nil => rfl
  | cons v visits ih =>
    obtain ⟨hv, hvisits⟩ := List.forall_mem_cons.mp hapart
    have hserve : server.serve v =
        (Session.serve server.program v.id v.ticks v.stream, server) :=
      Prod.ext rfl (serve_snd hsize hv)
    rw [serveAll, hserve]
    dsimp only
    rw [ih hvisits, List.map_cons]

/-- Sessions are local runs and do not affect each other. Whatever sessions a server has, and however
far their machines come, each is fulfilled with the program that the server had before them; its
stream gets what it would get in any other place among any other sessions; and the program is left
as it was. -/
theorem sessions_equal_local_runs (server : Server)
    (hsize : server.program.size ≤ Memory.arrayLimit) (visits : List Visit)
    (hvisits : ∀ v ∈ visits, v.stream.Undisturbed ∧ server.Apart v) :
    (server.serveAll visits).2 = server ∧ (server.serveAll visits).1.length = visits.length ∧
    ∀ (i : Nat) (v : Visit), visits[i]? = some v →
      ∃ served, (server.serveAll visits).1[i]? = some served ∧ Fulfils server.program v served ∧
        ∀ (others : List Visit), (∀ v ∈ others, server.Apart v) → ∀ (j : Nat) (v' : Visit),
          others[j]? = some v' → v'.stream.Undisturbed → asked v'.stream = asked v.stream →
          v'.stream.sink = v.stream.sink → v'.ticks = v.ticks →
          ∃ served', (server.serveAll others).1[j]? = some served' ∧
            served'.ended = served.ended ∧ served'.stream.sink = served.stream.sink := by
  rw [serveAll_eq hsize fun v hv => (hvisits v hv).2]
  refine ⟨rfl, List.length_map .., fun i v hi => ?_⟩
  have hv := (hvisits v (List.mem_of_getElem? hi)).1
  refine ⟨_, by rw [List.getElem?_map, hi]; rfl, fulfils_serve server.program v hv, ?_⟩
  intro others hothers j v' hj hv' hasked hsink hticks
  refine ⟨_, ?_, serve_congr hv hv' hasked hsink hticks⟩
  rw [serveAll_eq hsize hothers, List.getElem?_map, hj]
  rfl

/-- Says `A` and its first byte, and then rewrites itself so that it would say `B`. -/
def turncoat : Array Platter :=
  #[0xD2000041, 0xA0000001, 0xB0000005, 0xA0000005, 0xD6000009, 0x10000083, 0x20000022, 0x70000000,
    0x70000000, 0xD2000042]

def hasty : Visit := ⟨"hasty", { source := .ofBytes [1, 72, 73], sink := {} }, 100, (· + 1)⟩

def halting : Visit :=
  ⟨"halting",
    { source := ⟨[.idle 2, .data [1], .data [], .idle 7, .data [74]], false⟩, sink := {} }, 100,
    (· + 1)⟩

/-- The machine of the first session leaves a program that would say `B` to the second one. -/
theorem sessions_equal_local_runs_turncoat :
    (∀ v ∈ [hasty, halting], v.stream.Undisturbed ∧ Apart ⟨turncoat, 0, 0⟩ v) ∧
      ((stages turncoat hasty.ticks hasty.stream).getLast?.map fun e =>
        (Engine.localRun e.machine.running.words { input := ⟨.ofBytes [74], []⟩, output := {} }
          100).2.accepted) = some #[[66], [74]] ∧
      ∃ served, (serveAll ⟨turncoat, 0, 0⟩ [hasty, halting]).1[1]? = some served ∧
        served.ended = true ∧ served.stream.sink.accepted = #[[65], [74]] := by
  have hvisits : ∀ v ∈ [hasty, halting], v.stream.Undisturbed ∧ Apart ⟨turncoat, 0, 0⟩ v := by
    refine List.forall_mem_cons.mpr ⟨⟨⟨rfl, rfl⟩, fun _ _ r _ => Nat.succ_ne_zero r⟩, ?_⟩
    exact List.forall_mem_singleton.mpr ⟨⟨rfl, rfl⟩, fun _ _ r _ => Nat.succ_ne_zero r⟩
  obtain ⟨-, -, hserved⟩ := sessions_equal_local_runs ⟨turncoat, 0, 0⟩ (by decide) _ hvisits
  obtain ⟨served, hserve, hfulfils, -⟩ := hserved 1 halting rfl
  have hlocal : Engine.localRun turncoat { input := ⟨.ofBytes [74], []⟩, output := {} } 100 =
      (some (.done ()), { writes := 2, accepted := #[[65], [74]] }) := by
    decide +kernel
  obtain ⟨hended, hsink⟩ := hfulfils.local_run [.ok 74] rfl
    { input := ⟨.ofBytes [74], []⟩, output := {} } ⟨rfl, rfl, rfl, rfl, rfl⟩
  refine ⟨hvisits, ?_, served, hserve, ?_, ?_⟩
  · decide +kernel
  · exact hended.trans (congrArg (fun r => r.1.isSome) hlocal)
  · exact congrArg Sink.accepted (hsink.trans (congrArg Prod.snd hlocal))

end Server

end PlatterMachine
