import PlatterMachine.Proofs.Engine.Composition

/-!
# Engines side by side

Two engines may differ in their streams and in the events that they record. As long as their streams
answer alike, every operation ends for both in the same way and leaves machines and memories that are
the same: nothing that the host does for a machine takes notice of the difference.
-/

namespace PlatterMachine

/-- How the streams of two engines go together: they answer alike and go together again. -/
structure Coupling where
  Reads : Reader → Reader → Prop
  Writes : Writer → Writer → Prop
  SameRecords : Prop
  readByte : ∀ {r r'}, Reads r r' →
    r'.readByte.1 = r.readByte.1 ∧ Reads r.readByte.2 r'.readByte.2
  fault_eq : ∀ {w w'}, Writes w w' → w'.fault = w.fault
  flush : ∀ {w w'}, Writes w w' → w'.flush.1 = w.flush.1 ∧ Writes w.flush.2 w'.flush.2
  writeByte : ∀ {w w'} (b : UInt8), Writes w w' →
    (w'.writeByte b).1 = (w.writeByte b).1 ∧ Writes (w.writeByte b).2 (w'.writeByte b).2

namespace Coupling

variable {c : Coupling} {e e' : Engine} {α β : Type}

/-- The engines have the same machine and, streams and records apart, the same host. -/
inductive Couples (c : Coupling) : Engine → Engine → Prop
  | mk {m : Machine} {h : Host} {input : Reader} {output : Writer} {logs : Bool}
      {events : Array EngineEvent} (hreads : c.Reads h.input input)
      (hwrites : c.Writes h.output output)
      (hrecords : c.SameRecords → logs = h.logs ∧ events = h.events) :
      Couples c ⟨m, h⟩ ⟨m, { h with input, output, logs, events }⟩

def Respects (c : Coupling) (x : Action Engine α) : Prop :=
  ∀ e e', c.Couples e e' → (x e').1 = (x e).1 ∧ c.Couples (x e).2 (x e').2

section Composition

variable {x : Action Engine α} {f : α → Action Engine β}

theorem Respects.bind (hx : c.Respects x) (hf : ∀ a, c.Respects (f a)) : c.Respects (x >>= f) :=
  fun e e' h => Action.rel_bind (r := fun t t' => c.Couples t' t) (hx e e' h) fun a t t' => hf a t' t

theorem Respects.during (hx : c.Respects x) (activity : String) :
    c.Respects (x.during activity) := by
  intro e e' h
  obtain ⟨hfst, hsnd⟩ := hx e e' h
  exact ⟨congrArg (Outcome.during activity) hfst, hsnd⟩

theorem Respects.cleaningUp {cleanup : Action Engine Unit} (hx : c.Respects x)
    (hcleanup : c.Respects cleanup) : c.Respects (x.cleaningUp cleanup) := by
  intro e e' h
  obtain ⟨hfst, hsnd⟩ := hx e e' h
  rcases hxe : x e with ⟨a | fault | crash, t⟩ <;> rcases hxe' : x e' with ⟨o', t'⟩ <;>
    rw [hxe, hxe'] at hfst hsnd <;> cases hfst <;> simp only [Action.cleaningUp, hxe, hxe']
  · exact ⟨trivial, hsnd⟩
  · exact hcleanup.bind (fun _ _ _ h => ⟨rfl, h⟩) t t' hsnd
  · exact ⟨trivial, hsnd⟩

end Composition

theorem respects_pure (a : α) : c.Respects (pure a) := fun _ _ h => ⟨rfl, h⟩

theorem respects_fail (fault : Fault) : c.Respects (Action.fail fault : Action Engine α) :=
  fun _ _ h => ⟨rfl, h⟩

theorem respects_crash (crash : Crash) : c.Respects (Action.crash crash : Action Engine α) :=
  fun _ _ h => ⟨rfl, h⟩

/-- What is read depends on neither streams nor records. -/
theorem respects_read {g : Engine → α} (hg : ∀ m h input output logs events,
    g ⟨m, { h with input, output, logs, events }⟩ = g ⟨m, h⟩) : c.Respects (Action.read g) := by
  rintro _ _ ⟨hreads, hwrites, hrecords⟩
  exact ⟨congrArg Outcome.done (hg ..), .mk hreads hwrites hrecords⟩

theorem respects_onMachine (g : Machine → Machine) : c.Respects (Engine.onMachine g) := by
  rintro _ _ ⟨hreads, hwrites, hrecords⟩
  exact ⟨rfl, .mk hreads hwrites hrecords⟩

/-- What is changed of the host are neither streams nor records. -/
theorem respects_onHost {g : Host → Host} (hg : ∀ h input output logs events,
    g { h with input, output, logs, events } = { g h with input, output, logs, events }) :
    c.Respects (Engine.onHost g) := by
  rintro _ _ @⟨m, h, input, output, logs, events, hreads, hwrites, hrecords⟩
  have hself := hg h h.input h.output h.logs h.events
  have hinput : (g h).input = h.input := by rw [hself]
  have houtput : (g h).output = h.output := by rw [hself]
  have hlogs : (g h).logs = h.logs := by rw [hself]
  have hevents : (g h).events = h.events := by rw [hself]
  refine ⟨rfl, ?_⟩
  change c.Couples ⟨m, g h⟩ ⟨m, g { h with input, output, logs, events }⟩
  rw [hg h input output logs events]
  exact .mk (hinput ▸ hreads) (houtput ▸ hwrites) (by rwa [hlogs, hevents])

theorem respects_note (event : EngineEvent) : c.Respects (Engine.note event) := by
  rintro _ _ @⟨m, h, input, output, logs, events, hreads, hwrites, hrecords⟩
  have hhost : ∀ h : Host, (if h.logs then { h with events := h.events.push event } else h) =
      { h with events := if h.logs then h.events.push event else h.events } := by
    intro h
    split <;> rfl
  refine ⟨rfl, ?_⟩
  change c.Couples ⟨m, if h.logs then _ else _⟩ ⟨m, if logs then _ else _⟩
  rw [hhost h, hhost { h with input, output, logs, events }]
  refine .mk hreads hwrites fun hsame => ?_
  obtain ⟨rfl, rfl⟩ := hrecords hsame
  exact ⟨rfl, rfl⟩

theorem respects_inMemory (y : Action Memory α) : c.Respects (Engine.inMemory y) := by
  rintro _ _ ⟨hreads, hwrites, hrecords⟩
  exact ⟨rfl, .mk hreads hwrites hrecords⟩

open Engine

theorem respects_readByte : c.Respects (onReader Reader.readByte) := by
  rintro _ _ ⟨hreads, hwrites, hrecords⟩
  obtain ⟨hanswer, hnext⟩ := c.readByte hreads
  exact ⟨congrArg Outcome.done hanswer, .mk hnext hwrites hrecords⟩

theorem write (c : Coupling) (bytes : List UInt8) {w w' : Writer} (h : c.Writes w w') :
    (Writer.write bytes w').1 = (Writer.write bytes w).1 ∧
      c.Writes (Writer.write bytes w).2 (Writer.write bytes w').2 := by
  induction bytes generalizing w w' with
  | nil => exact ⟨c.fault_eq h, h⟩
  | cons b bytes ih =>
    obtain ⟨hanswer, hnext⟩ := c.writeByte b h
    rw [Writer.write, Writer.write]
    rcases hw : w.writeByte b with ⟨_ | fault, w₁⟩ <;> rcases hw' : w'.writeByte b with ⟨o, w₁'⟩ <;>
      rw [hw, hw'] at hanswer hnext <;> cases hanswer
    · exact ih hnext
    · exact ⟨rfl, hnext⟩

theorem writes_of_use {g : Writer → Option Fault × Writer} (hg : Writer.Use g) {w w' : Writer}
    (h : c.Writes w w') : (g w').1 = (g w).1 ∧ c.Writes (g w).2 (g w').2 := by
  cases hg with
  | flush => exact c.flush h
  | byte b => exact c.writeByte b h
  | bytes text => exact c.write text h

theorem respects_onWriter (activity : String) {g : Writer → Option Fault × Writer}
    (hg : Writer.Use g) : c.Respects (onWriter activity g) := by
  rintro _ _ ⟨hreads, hwrites, hrecords⟩
  obtain ⟨hanswer, hnext⟩ := writes_of_use hg hwrites
  refine ⟨?_, .mk hreads hnext hrecords⟩
  simp only [onWriter, hanswer]

theorem respects_of_composed {manner : Manner} {x : Action Engine α}
    (h : Composed True True manner x) : c.Respects x := by
  induction h with
  | value a => exact respects_pure a
  | look hg => exact respects_read hg
  | crash crash => exact respects_crash crash
  | fail _ => exact respects_fail _
  | machine g => exact respects_onMachine g
  | array place _ => exact respects_onMachine _
  | scratch v => exact respects_onMachine _
  | host hg _ => exact respects_onHost hg
  | note event => exact respects_note event
  | memory _ => exact respects_inMemory _
  | request y activity => exact (respects_inMemory y).during activity
  | input _ => exact respects_readByte
  | output _ activity hg => exact respects_onWriter activity hg
  | bind _ _ hx hf => exact hx.bind hf
  | whole _ hx => exact hx
  | first _ _ hx hf => exact hx.bind hf
  | last _ _ hx hf => exact hx.bind hf

theorem respects_prepare : c.Respects prepare := respects_of_composed composed_prepare

theorem respects_flush : c.Respects Engine.flush := respects_of_composed (composed_flush trivial)

theorem respects_serveReason (reason : Reason) (left : Exit) :
    c.Respects (serveReason reason left) :=
  respects_of_composed (composed_serveReason (fun _ => trivial) (fun _ => trivial) left)

theorem respects_close : c.Respects close := by
  unfold close
  refine Respects.bind (respects_read fun _ _ _ _ _ _ => rfl) fun arrays => ?_
  refine (respects_inMemory _).bind fun _ => (respects_onMachine _).bind fun _ => ?_
  refine Respects.bind (respects_onHost fun _ _ _ _ _ => rfl) fun _ => ?_
  refine (respects_read fun _ _ _ _ _ _ => rfl).bind fun owns => ?_
  dsimp only
  split
  · refine Respects.bind ?_ fun fault => ?_
    · rintro _ _ ⟨hreads, hwrites, hrecords⟩
      exact ⟨rfl, .mk hreads hwrites hrecords⟩
    · cases fault with
      | none => exact respects_pure ()
      | some fault => exact respects_fail fault
  · exact respects_pure ()

theorem respects_start (program : Array Platter) : c.Respects (start program) := by
  unfold start
  refine Respects.bind (((respects_inMemory _).cleaningUp respects_close).during _) fun buffer => ?_
  exact (respects_onMachine _).bind fun _ => respects_onHost fun _ _ _ _ _ => rfl

/-- Streams that go together cancel a run together, and still go together in the next run. -/
structure Steadfast (c : Coupling) : Prop where
  cancelled_eq : ∀ {e e'}, c.Couples e e' → e'.host.cancelled = e.host.cancelled
  renew : ∀ {e e'}, c.Couples e e' →
    c.Couples { e with host := e.host.renew } { e' with host := e'.host.renew }

def SameEnd (c : Coupling) (r r' : RunResult) : Prop := r'.1 = r.1 ∧ c.Couples r.2 r'.2

theorem Couples.stop (h : c.Couples e e') : c.Couples e.stop e'.stop := by
  obtain ⟨hreads, hwrites, hrecords⟩ := h
  exact .mk hreads hwrites hrecords

theorem Couples.conclude (h : c.Couples e e') (outcome : Outcome Unit) :
    c.SameEnd (conclude outcome e) (conclude outcome e') := by
  cases outcome with
  | done _ => exact ⟨rfl, h.stop⟩
  | crashed crash => exact ⟨rfl, h⟩
  | failed fault =>
    refine ⟨rfl, ?_⟩
    unfold Engine.conclude
    dsimp only
    split
    · exact h
    · exact h.stop

theorem SameEnd.finish {r r' : RunResult} (h : c.SameEnd r r') :
    c.SameEnd (finish r) (finish r') := by
  obtain ⟨outcome, e⟩ := r
  obtain ⟨outcome', e'⟩ := r'
  obtain ⟨rfl, hcouples⟩ : outcome' = outcome ∧ c.Couples e e' := h
  cases outcome' with
  | none => exact ⟨rfl, hcouples⟩
  | some outcome =>
    obtain ⟨hanswer, hflushed⟩ := respects_flush e e' hcouples
    rcases hf : Engine.flush e with ⟨o, t⟩
    rcases hf' : Engine.flush e' with ⟨o', t'⟩
    rw [hf, hf'] at hanswer hflushed
    cases hanswer
    simp only [SameEnd, Engine.finish, hf, hf']
    cases o <;> cases outcome <;> exact ⟨rfl, hflushed⟩

/-- Two runs from the same place go on together, tick by tick. -/
theorem Steadfast.loop (hc : c.Steadfast) (signals : Signals) (fuel tick : Nat)
    (cancelled looking : Bool) (pc : UInt32) (h : c.Couples e e') :
    c.SameEnd (loop signals fuel tick cancelled looking e.machine e.host pc)
      (loop signals fuel tick cancelled looking e'.machine e'.host pc) := by
  have hmachine {e e' : Engine} (h : c.Couples e e') : e'.machine = e.machine := by
    cases h
    rfl
  induction fuel generalizing e e' tick cancelled looking pc with
  | zero => exact ⟨rfl, h⟩
  | succ fuel ih =>
    simp only [Engine.loop, hc.cancelled_eq h, hmachine h]
    have hon (m : Machine) : c.Couples ⟨m, e.host⟩ ⟨m, e'.host⟩ := by
      obtain ⟨hreads, hwrites, hrecords⟩ := h
      exact .mk hreads hwrites hrecords
    split
    · split
      · exact (hon _).conclude _
      · exact ih _ _ _ _ (hon _)
    · cases e.machine.step ((cancelled || signals.cancels tick) && signals.shows tick) pc with
      | next m pc' => exact ih _ _ _ _ (hon m)
      | crash m crash => exact (hon m).conclude _
      | exit m left =>
        dsimp only
        cases Reason.ofCode? left.reason with
        | none => exact (hon m).conclude _
        | some reason =>
          obtain ⟨hanswer, hserved⟩ := respects_serveReason reason left _ _ (hon m)
          dsimp only
          rcases hs : serveReason reason left ⟨m, e.host⟩ with ⟨(_ | pc') | fault | crash, t⟩ <;>
            rcases hs' : serveReason reason left ⟨m, e'.host⟩ with ⟨o', t'⟩ <;>
            rw [hs, hs'] at hanswer hserved <;> cases hanswer
          · exact hserved.conclude _
          · exact ih _ _ _ _ hserved
          · exact hserved.conclude _
          · exact hserved.conclude _

/-- Two engines side by side run to the same end. -/
theorem Steadfast.run (hc : c.Steadfast) (h : c.Couples e e') (signals : Signals) (cancelled : Bool)
    (fuel : Nat) :
    c.SameEnd (e.run signals cancelled fuel) (e'.run signals cancelled fuel) := by
  have hstopped : e'.host.stopped = e.host.stopped := by
    cases h
    rfl
  unfold Engine.run
  rw [hstopped]
  split
  · exact ⟨rfl, h⟩
  · obtain ⟨hanswer, hprepared⟩ := respects_prepare _ _ (hc.renew h)
    rcases hp : prepare { e with host := e.host.renew } with ⟨_ | fault | crash, t⟩ <;>
      rcases hp' : prepare { e' with host := e'.host.renew } with ⟨o', t'⟩ <;>
      rw [hp, hp'] at hanswer hprepared <;> cases hanswer
    · have hcode : t'.machine.running.code = t.machine.running.code := by
        cases hprepared
        rfl
      have hfinger : t'.host.finger = t.host.finger := by
        cases hprepared
        rfl
      simp only [hcode, hfinger]
      cases t.machine.running.code with
      | none => exact (hprepared.conclude _).finish
      | some co => exact (hc.loop signals fuel 0 cancelled true _ hprepared).finish
    · exact (hprepared.conclude _).finish
    · exact (hprepared.conclude _).finish

end Coupling

end PlatterMachine
