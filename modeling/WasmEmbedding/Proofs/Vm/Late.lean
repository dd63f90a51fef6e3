import WasmEmbedding.Proofs.Vm.Layout
import WasmEmbedding.Proofs.Vm.Signatures

/-! # Late registrations

What a registration does to an instance that is running already.  Two machines with the same main
module, one on a store with more in it (`Ahead`), come to the same whenever the main module is
called (`Ahead.execute`); a registration puts the machine on such a store, and a replaced
environment is not looked at before the next session begins.  So by induction on what happens from
turn to turn, a machine with late registrations is seen to do what it does without them, but for
the sessions that these begin (`Ahead.sees`).

That they begin sessions at all is the one way in which they disturb the instance: the session is
shared by all guests of the machine, and linking a module or an import object for the system
interface starts it anew.  `late_registration_restarts` is a run in which a closed descriptor comes
back and the exit code is forgotten.

What is said of a call ends where the call gets stuck on the smaller store for want of a function
that the other store has.  Code cannot bring this about by what it says, valid or not, since its
instance has addresses only of what is there (`invariant_layout`).  It takes a reference to a
function that has not been made yet, and somebody would have to make it up and put it into a table.
So as long as the references in tables lead to functions (`Setting.leads`), the same is seen to the
end.
-/
namespace WasmEmbedding

open Engine Wasm

theorem Wasm.Image.validate_eq_ok {i : Image} {features : Features} {m : Module}
    (decoded : Binary.decode features i.sections = .ok m)
    (checked : Typing.checkModule features m = .ok ()) : i.validate features = .ok m := by
  rw [Image.validate, decoded]
  change (Typing.checkModule features m >>= fun _ => Except.ok m) = _
  rw [checked]
  rfl

namespace Vm

/-! ## The same run on a store with more in it -/

/-- The same main module, on a store with more in it. -/
structure Ahead (s t : Setting) : Prop where
  store : s.vm.store.Within t.vm.store
  host : t.host.aside = s.host.aside
  main : t.vm.main = s.vm.main
  statistics : t.vm.statistics = s.vm.statistics
  housed : s.vm.Housed
  sound : s.vm.store.layout.Sound
  presents : s.vm.Presents

namespace Ahead

variable {s t : Setting} (h : Ahead s t)

include h

theorem later {u : Setting} (h' : Later t u) : Ahead s u :=
  { h with
    store := h.store.trans h'.store
    host := (congrArg Host.aside h'.host).trans h.host
    main := h'.main.trans h.main
    statistics := h'.statistics.trans h.statistics }

theorem resumed (session : Option Wasi.Session) :
    Ahead (s.resumed session) (t.resumed session) := by
  cases session with
  | none => exact h
  | some session =>
    exact { h with store := h.store.mapContext fun c => { c with session, exitCode := none } }

theorem active : t.vm.active = s.vm.active := congrArg Main.active h.main

theorem ready (name : String) (args : List Value) :
    (Call.main name args).ready t.vm = (Call.main name args).ready s.vm :=
  congrArg (fun m : Main => decide (m.stage = .instantiated)) h.main

/-- A function of the main module is where it was. -/
theorem target? (name : String) (args : List Value) :
    (Call.main name args).target? t.vm = (Call.main name args).target? s.vm := by
  change (t.vm.active.bind fun a => (t.vm.store.exported? a.index name).bind Item.function?) =
    s.vm.active.bind fun a => (s.vm.store.exported? a.index name).bind Item.function?
  rw [h.active]
  cases hactive : s.vm.active with
  | none => rfl
  | some a =>
    obtain ⟨i, hi, -⟩ := h.presents a hactive
    rw [Option.bind_some, Option.bind_some, Store.exported?, Store.exported?, hi,
      h.store.instances _ _ hi]

theorem liveType {name : String} {args : List Value} {a : Nat}
    (found : (Call.main name args).target? s.vm = some a) : t.vm.liveType a = s.vm.liveType a := by
  obtain ⟨-, type, -, ⟨f, hf, htype⟩, -⟩ := h.presents.exports_target found
  rw [liveType_of_hasType ⟨f, hf, htype⟩, liveType_of_hasType ⟨f, h.store.functions a f hf, htype⟩]

theorem refused {name : String} {args : List Value} {e : ExecutionError}
    (hs : (Call.main name args).Refused s.vm e) : (Call.main name args).Refused t.vm e := by
  cases hs with
  | notInstantiated ready => exact .notInstantiated ((h.ready name args).trans ready)
  | notFound ready absent =>
    exact .notFound ((h.ready name args).trans ready) ((h.target? name args).trans absent)
  | unsupported ready found type =>
    rw [← h.liveType found] at type
    exact .unsupported ((h.ready name args).trans ready) ((h.target? name args).trans found) type
  | arguments ready found type mismatch =>
    rw [← h.liveType found] at type
    exact .arguments ((h.ready name args).trans ready) ((h.target? name args).trans found) type
      mismatch

theorem admitted {name : String} {args : List Value} {a : Nat} {signature : Signature}
    (hs : (Call.main name args).Admitted s.vm a signature) :
    (Call.main name args).Admitted t.vm a signature where
  ready := (h.ready name args).trans hs.ready
  found := (h.target? name args).trans hs.found
  type := h.liveType hs.found ▸ hs.type
  kinds := hs.kinds

theorem wider : Wider (Action.computer s) (Action.computer t) where
  store := h.store
  host := h.host
  meter := by
    have hconfig : t.vm.config = s.vm.config := congrArg Main.config h.main
    change Meter.mk (if t.vm.config.meters then some t.vm.statistics.remainingBudget.toNat
      else none) 0 0 = _
    rw [hconfig, h.statistics]
    rfl
  frame := rfl
  callers := rfl
  depth := rfl
  functionsHoused := h.housed
  frameHoused := nofun
  callersHoused := nofun

end Ahead

/-- What a call answers that gets stuck. -/
def illTyped : RuntimeError := .execution (.trap "ill-typed code" none)

namespace Action

instance (address : Nat) (signature : Signature) (args : List Value) :
    Anchored (exchangeVia (Exec.invoke address) signature args) :=
  inferInstanceAs (Anchored (_ >>= _))

theorem scoped_exchangeVia {l : Layout} {address : Nat} (h : address < l.rows.functions)
    (signature : Signature) (args : List Value) :
    Scoped l (exchangeVia (Exec.invoke address) signature args) := by
  have invoked (operands : List Operand) : Scoped l (Exec.invoke address operands) :=
    Exec.scoped_invoke ⟨address, h⟩ operands
  refine .get (fun m => ?_) fun m n hw => by dsimp only; rw [hw.store.heap, hw.store.id]
  refine .seq inferInstance fun operands => ?_
  split <;> infer_instance

theorem outcome_ending_of_tracks {α : Type} {x : Exec α} {m n : Machine}
    (h : Tracks (EStateM.run x m) (EStateM.run x n)) :
    (outcome x m = .error (.failure "ill-typed code") ∧ (ending x m).store.leads = false) ∨
      outcome x n = outcome x m ∧ Wider (ending x m) (ending x n) := by
  unfold outcome ending
  generalize EStateM.run x m = r, EStateM.run x n = r' at h ⊢
  cases h with
  | ok a hw => exact .inr ⟨rfl, hw⟩
  | error e hw => exact .inr ⟨rfl, hw⟩
  | stuck h => exact .inl ⟨rfl, h⟩

/-- What is reported has to do with what the engine has come to, and not with the machine. -/
theorem outcome_report (signature : Signature) (r : Except Stop (List Value)) (s t : Setting) :
    outcome (report signature r) t = outcome (report signature r) s := by
  cases r with
  | ok values => rfl
  | error stop =>
    cases stop with
    | host e => cases e <;> rfl
    | _ => rfl

end Action

open Vm.Action in
/-- What an admitted call answers and leaves, given what the engine has come to. -/
theorem Call.action_of_admitted {s : Setting} {c : Call} {address : Nat} {signature : Signature}
    (h : c.Admitted s.vm address signature) {x : Exec (List Value)}
    (hx : x = exchangeVia (Exec.invoke address) signature c.args) :
    outcome c.action s = outcome (report signature (outcome x (computer s)))
        (counted s (ending x (computer s))) ∧
      ending c.action s = called s (ending x (computer s)) (outcome x (computer s)) := by
  have reported :=
    report_post signature (outcome x (computer s)) (counted s (ending x (computer s)))
  have runs : EStateM.run c.action s = EStateM.run (report signature (outcome x (computer s)))
      (counted s (ending x (computer s))) := by
    rw [← run_via_invoke, run_via_of_admitted h, run_engageVia, hx]
  refine ⟨?_, Eq.trans ?_ reported.1⟩
  · rw [outcome, runs]
    rfl
  · rw [ending, runs]
    rfl

/-- What the engine has left is ahead of what it has left on the other store. -/
theorem Ahead.called {s t : Setting} (h : Ahead s t) {m n : Machine} (hw : Wider m n)
    (hcode : m.code = s.vm.store.code) (hlayout : m.layout = s.vm.store.layout)
    (r : Except Stop (List Value)) :
    Ahead (called s m r) (called t n r) where
  store := hw.store.mapContext fun c =>
    { c with exitCode := Action.exitCodeAfter c.exitCode r }
  host := hw.host
  main := h.main
  statistics := by
    change t.vm.statistics.recordCall (UInt64.ofNat n.meter.consumed) 1 = _
    rw [hw.meter, h.statistics]
    rfl
  housed := Housed.of_code h.housed hcode
  sound := by
    change m.layout.Sound
    rw [hlayout]
    exact h.sound
  presents := h.presents.grows ⟨rfl, hcode ▸ Std.Refl.refl _⟩

/-- **A call of the main module comes to the same on a store with more in it**, unless it gets stuck
on the other one, which then holds a reference that does not lead anywhere. -/
theorem Ahead.execute {s t : Setting} (h : Ahead s t) (name : String) (args : List Value) :
    (outcome (Action.execute name args) s = .error illTyped ∧
        (ending (Action.execute name args) s).vm.store.leads = false) ∨
      outcome (Action.execute name args) t = outcome (Action.execute name args) s ∧
        Ahead (ending (Action.execute name args) s) (ending (Action.execute name args) t) := by
  obtain ⟨e, refused⟩ | ⟨address, signature, admitted⟩ :=
    Call.refused_or_admitted s.vm (.main name args)
  · have hs := ((call_frame s _).1 e refused).1
    have ht := ((call_frame t _).1 e (h.refused refused)).1
    change EStateM.run (Action.execute name args) _ = _ at hs ht
    rw [outcome_of_error hs, outcome_of_error ht, ending_of_error hs, ending_of_error ht]
    exact .inr ⟨rfl, h⟩
  · obtain ⟨x, hx⟩ : ∃ x, x = Action.exchangeVia (Exec.invoke address) signature args := ⟨_, rfl⟩
    obtain ⟨answerS, leftS⟩ := Call.action_of_admitted admitted hx
    obtain ⟨answerT, leftT⟩ := Call.action_of_admitted (h.admitted admitted) hx
    change outcome (Action.execute name args) _ = _ at answerS answerT
    change ending (Action.execute name args) _ = _ at leftS leftT
    obtain ⟨-, type, -, ⟨f, hf, -⟩, -⟩ := h.presents.exports_target admitted.found
    have there : address < s.vm.store.layout.rows.functions :=
      (Array.getElem?_eq_some_iff.mp hf).1
    have hscoped : Scoped s.vm.store.layout x :=
      hx ▸ Action.scoped_exchangeVia there signature args
    have hanchored : Anchored x := by
      rw [hx]
      infer_instance
    have hlayout : (ending x (Action.computer s)).layout = s.vm.store.layout :=
      hanchored.keeps (Action.computer s)
    have hcode : (ending x (Action.computer s)).code = s.vm.store.code :=
      hx ▸ Action.keeps_code_exchange address signature args (Action.computer s)
    rw [answerS, answerT, leftS, leftT]
    obtain ⟨stuck, hleads⟩ | ⟨same, hw⟩ :=
      Action.outcome_ending_of_tracks (hscoped.follows h.sound h.wider rfl)
    · rw [stuck]
      exact .inl ⟨rfl, hleads⟩
    · rw [same]
      exact .inr ⟨Action.outcome_report signature _ _ _, h.called hw hcode hlayout _⟩

/-! ## Turns -/

/-- What happens to a machine while an instance of its main module is there. -/
inductive Turn where
  /-- The owner calls a function of the main module. -/
  | execute (name : String) (args : List Value)
  /-- The owner registers something. -/
  | register (o : Operation)
  /-- An import object for the system interface gets another environment. -/
  | provide (key : Host.EnvironmentKey) (e : Wasi.Environment)
  /-- A session begins, which is what a registration may come down to. -/
  | begin (session : Wasi.Session)

/-- What a turn leaves. -/
def Setting.turned (s : Setting) : Turn → Setting
  | .execute name args => ending (Action.execute name args) s
  | .register o => s.after o
  | .provide key e => { s with host := s.host.setEnvironment key e }
  | .begin session => Action.begun s session

/-- What is seen of a call: its answer, and all that it leaves but for the store. -/
structure Sight where
  answer : Except RuntimeError (List Value)
  /-- The log, the exit code and the session, which is all that a guest knows of its environment. -/
  context : Context
  /-- Files, streams and whatever host functions have changed. -/
  host : Host
  statistics : Statistics

/-- Answer and exit code. -/
def Sight.summary (x : Sight) : Except RuntimeError (List Value) × Option UInt32 :=
  (x.answer, x.context.exitCode)

/-- What is seen of a turn. -/
def Setting.sight? (s : Setting) (turn : Turn) : Option Sight :=
  match turn with
  | .execute name args =>
    some ⟨outcome (Action.execute name args) s, (s.turned turn).vm.store.context,
      (s.turned turn).host.aside, (s.turned turn).vm.statistics⟩
  | _ => none

/-- What is seen of one turn after the other. -/
def Setting.sights (s : Setting) : List Turn → List Sight
  | [] => []
  | turn :: rest => (s.sight? turn).toList ++ (s.turned turn).sights rest

/-- The same is seen, up to a call that gets stuck. -/
inductive Sees : List Sight → List Sight → Prop
  | nil : Sees [] []
  | cons (x : Sight) {xs ys : List Sight} (h : Sees xs ys) : Sees (x :: xs) (x :: ys)
  | stuck {x : Sight} (h : x.answer = .error illTyped) (xs ys : List Sight) : Sees (x :: xs) ys

/-- Where no call gets stuck, the same is seen altogether. -/
theorem Sees.eq_of_typed {xs ys : List Sight} (h : Sees xs ys)
    (typed : ∀ x ∈ xs, x.answer ≠ .error illTyped) : xs = ys := by
  induction h with
  | nil => rfl
  | cons x h ih => rw [ih fun y hy => typed y (List.mem_cons_of_mem x hy)]
  | stuck h => exact absurd h (typed _ List.mem_cons_self)

/-- At the end of every turn, the references in tables lead to functions. -/
def Setting.leads (s : Setting) : List Turn → Bool
  | [] => true
  | turn :: rest => (s.turned turn).vm.store.leads && (s.turned turn).leads rest

/-- Every registration is one for which nothing is run. -/
def Setting.isMild (s : Setting) : List Turn → Bool
  | [] => true
  | turn :: rest =>
    (match turn with
      | .register o => o.isInert s
      | _ => true) && (s.turned turn).isMild rest

/-- What stays of a turn if nothing is registered and no environment replaced: a registration leaves
the session that it begins. -/
def Setting.residue (s : Setting) : Turn → Option Turn
  | .register o => (o.session? s).map .begin
  | .provide _ _ => none
  | turn => some turn

/-- What stays of one turn after the other. -/
def Setting.residues (s : Setting) : List Turn → List Turn
  | [] => []
  | turn :: rest => (s.residue turn).toList ++ (s.turned turn).residues rest

/-- **One turn after the other, the same is seen as on a store where nothing is registered**, and to
the end if all references lead to functions there. -/
theorem Ahead.sees {s t : Setting} (h : Ahead s t) {turns : List Turn}
    (mild : t.isMild turns = true) :
    Sees (s.sights (t.residues turns)) (t.sights turns) ∧
      (s.leads (t.residues turns) = true → t.sights turns = s.sights (t.residues turns)) := by
  induction turns generalizing s t with
  | nil => exact ⟨.nil, fun _ => rfl⟩
  | cons turn rest ih =>
    obtain ⟨inert, later⟩ := (Bool.and_eq_true _ _).mp mild
    cases turn with
    | execute name args =>
      obtain ⟨stuck, lost⟩ | ⟨same, ahead⟩ := h.execute name args
      · refine ⟨.stuck stuck _ _, fun leads => ?_⟩
        have found : (ending (Action.execute name args) s).vm.store.leads = true :=
          ((Bool.and_eq_true _ _).mp leads).1
        rw [found] at lost
        cases lost
      · have sight : t.sight? (.execute name args) = s.sight? (.execute name args) := by
          unfold Setting.sight?
          change some (Sight.mk (outcome (Action.execute name args) t)
            (ending (Action.execute name args) t).vm.store.context
            (ending (Action.execute name args) t).host.aside
            (ending (Action.execute name args) t).vm.statistics) = _
          rw [same, ahead.store.context, ahead.host, ahead.statistics]
          rfl
        obtain ⟨seen, equal⟩ := ih ahead later
        rw [Setting.sights, sight]
        refine ⟨.cons _ seen, fun leads => ?_⟩
        exact congrArg _ (equal ((Bool.and_eq_true _ _).mp leads).2)
    | register o =>
      have added := later_after inert
      change Sees (s.sights (((o.session? t).map Turn.begin).toList ++ _)) _ ∧
        (s.leads (((o.session? t).map Turn.begin).toList ++ _) = true →
          _ = s.sights (((o.session? t).map Turn.begin).toList ++ _))
      cases hsession : o.session? t with
      | none =>
        rw [hsession] at added
        exact ih (h.later added) later
      | some session =>
        rw [hsession] at added
        obtain ⟨seen, equal⟩ := ih ((h.resumed (some session)).later added) later
        exact ⟨seen, fun leads => equal ((Bool.and_eq_true _ _).mp leads).2⟩
    | provide key e => exact ih { h with } later
    | begin session =>
      obtain ⟨seen, equal⟩ := ih (h.resumed (some session)) later
      exact ⟨seen, fun leads => equal ((Bool.and_eq_true _ _).mp leads).2⟩

/-- A turn that registers something or replaces an environment. -/
def Turn.isLate : Turn → Bool
  | .register _ => true
  | .provide _ _ => true
  | _ => false

/-- No registration begins a session. -/
def Setting.isUnbroken (s : Setting) : List Turn → Bool
  | [] => true
  | turn :: rest =>
    (match turn with
      | .register o => (o.session? s).isNone
      | _ => true) && (s.turned turn).isUnbroken rest

/-- Registrations that begin no session leave nothing. -/
theorem residues_of_isUnbroken {s : Setting} {turns : List Turn} (h : s.isUnbroken turns = true) :
    s.residues turns = turns.filter fun turn => !turn.isLate := by
  induction turns generalizing s with
  | nil => rfl
  | cons turn rest ih =>
    obtain ⟨unbroken, later⟩ := (Bool.and_eq_true _ _).mp h
    rw [Setting.residues, ih later]
    cases turn with
    | register o =>
      change ((o.session? s).map Turn.begin).toList ++ _ = _
      rw [Option.isNone_iff_eq_none.mp unbroken]
      rfl
    | _ => rfl

/-- A reachable machine is ahead of itself. -/
theorem Reachable.ahead {s : Setting} (h : Reachable s) : Ahead s s :=
  ⟨.refl _, rfl, rfl, rfl, invariant_housed.reachable h, invariant_layout.reachable h,
    invariant_presents.reachable h⟩

/-- **Late registrations do to the running instance what the sessions do that they begin**, and
nothing else.  Whatever is registered between the calls of the main module, successfully or not,
and whatever environments are replaced, as long as nothing is run for it the calls are seen to
answer and leave the same as with the sessions alone; and if no registration begins a session,
the same as with nothing registered and nothing replaced.  They are seen so up to a call that gets
stuck, and to the end if the references in tables lead to functions even where nothing has been
registered. -/
theorem late_registration {s : Setting} (h : Reachable s) {turns : List Turn}
    (mild : s.isMild turns = true) :
    Sees (s.sights (s.residues turns)) (s.sights turns) ∧
    (s.leads (s.residues turns) = true → s.sights turns = s.sights (s.residues turns)) ∧
    (s.isUnbroken turns = true →
      Sees (s.sights (turns.filter fun turn => !turn.isLate)) (s.sights turns) ∧
      (s.leads (turns.filter fun turn => !turn.isLate) = true →
        s.sights turns = s.sights (turns.filter fun turn => !turn.isLate))) := by
  obtain ⟨seen, equal⟩ := h.ahead.sees mild
  refine ⟨seen, equal, fun unbroken => ?_⟩
  rw [← residues_of_isUnbroken unbroken]
  exact ⟨seen, equal⟩

/-- Two calls of the counter, between which a module is registered. -/
def countingLate : List Turn :=
  [.execute "bump" [], .register (.register "late" (.bytes emptyBytes)), .execute "bump" []]

/-- The counter goes on counting when a module is registered. -/
theorem late_registration_counting :
    counting.isMild countingLate = true ∧ counting.isUnbroken countingLate = true ∧
      Sees (counting.sights [.execute "bump" [], .execute "bump" []])
        (counting.sights countingLate) ∧
      counting.sights countingLate =
        counting.sights [.execute "bump" [], .execute "bump" []] ∧
      (counting.sights countingLate).map Sight.summary =
        [(.ok [.i32 1], none), (.ok [.i32 2], none)] := by
  have mild : counting.isMild countingLate = true := by decide +kernel
  have unbroken : counting.isUnbroken countingLate = true := by decide +kernel
  have leads : counting.leads [.execute "bump" [], .execute "bump" []] = true := by
    decide +kernel
  obtain ⟨seen, equal⟩ := (late_registration reachable_counting mild).2.2 unbroken
  exact ⟨mild, unbroken, seen, equal leads, by decide +kernel⟩

/-- A module that closes the standard output and that quits with the code 7. -/
def quitterBytes : List UInt8 :=
  emptyBytes ++
    [1, 0x11, 4, 0x60, 1, 0x7f, 1, 0x7f, 0x60, 1, 0x7f, 0, 0x60, 0, 1, 0x7f, 0x60, 0, 0] ++
    [2, 0x46, 2] ++
    [0x16, 0x77, 0x61, 0x73, 0x69, 0x5f, 0x73, 0x6e, 0x61, 0x70, 0x73, 0x68, 0x6f, 0x74, 0x5f,
      0x70, 0x72, 0x65, 0x76, 0x69, 0x65, 0x77, 0x31] ++
    [8, 0x66, 0x64, 0x5f, 0x63, 0x6c, 0x6f, 0x73, 0x65, 0, 0] ++
    [0x16, 0x77, 0x61, 0x73, 0x69, 0x5f, 0x73, 0x6e, 0x61, 0x70, 0x73, 0x68, 0x6f, 0x74, 0x5f,
      0x70, 0x72, 0x65, 0x76, 0x69, 0x65, 0x77, 0x31] ++
    [9, 0x70, 0x72, 0x6f, 0x63, 0x5f, 0x65, 0x78, 0x69, 0x74, 0, 1] ++
    [3, 3, 2, 2, 3] ++ [5, 3, 1, 0, 0] ++
    [7, 0x19, 3, 6, 0x6d, 0x65, 0x6d, 0x6f, 0x72, 0x79, 2, 0,
      5, 0x63, 0x6c, 0x6f, 0x73, 0x65, 0, 2, 4, 0x71, 0x75, 0x69, 0x74, 0, 3] ++
    [0x0a, 0x0f, 2, 6, 0, 0x41, 1, 0x10, 0, 0x0b, 6, 0, 0x41, 7, 0x10, 1, 0x0b]

/-- The image of the module. -/
def quitterImage : Image := ⟨quitterBytes, (Binary.sections quitterBytes).toOption.getD []⟩

/-- The module itself. -/
def quitterModule : Module := (Binary.decode {} quitterImage.sections).toOption.getD {}

theorem validate_quitter : quitterImage.validate {} = .ok quitterModule := by
  have decoded : Binary.decode {} quitterImage.sections = .ok quitterModule :=
    eq_ok_getD_of_isOk (by decide +kernel) _
  have names : quitterModule.exports.map Export.name = ["memory", "close", "quit"] := by
    decide +kernel
  -- Sorting does not compute in the kernel, so the names are looked at apart.
  have different : Typing.distinct ["memory", "close", "quit"] = true := by
    simp [Typing.distinct, List.mergeSort, List.MergeSort.Internal.splitInTwo]
  have checked : (Typing.checkModule {} quitterModule).isOk = true := by
    unfold Typing.checkModule
    rw [names, different]
    decide +kernel
  exact Image.validate_eq_ok decoded (eq_ok_of_isOk checked)

/-- A new machine on a host with an import object for the system interface. -/
def served : Setting := ⟨empty {} ⟨0⟩, (Host.newWasiObject (Host.newStore {}).2 .empty).2⟩

/-- The machine with that object registered and the module loaded. -/
def offered : Setting :=
  (served.after (.registerImport (.wasi ⟨0⟩))).after (.load (.bytes quitterBytes))

/-- The same machine past validation. -/
def offeredValid : Setting :=
  { offered with
    vm := { offered.vm with compiled := some quitterModule, stage := .validated } }

theorem after_validate_offered : offered.after .validate = offeredValid := by
  have found : (offered.vm.stage, offered.vm.loaded, offered.vm.config.engine.features) =
      (.loaded, some quitterImage, {}) := by decide +kernel
  rw [Prod.mk.injEq, Prod.mk.injEq] at found
  obtain ⟨stage, loaded, features⟩ := found
  have run := Action.run_validate offered
  rw [stage, loaded] at run
  dsimp only at run
  rw [features, validate_quitter] at run
  exact ending_of_ok run

/-- The machine with an instance of the module. -/
def quitting : Setting := offeredValid.after .instantiate

theorem reachable_quitting : Reachable quitting := by
  have hnew : Vm.new {} {} = (.ok (empty {} ⟨0⟩), (Host.newStore {}).2) := rfl
  have hserved : Reachable served := .elsewhere (.new hnew) _
  rw [quitting, ← after_validate_offered]
  exact .operate (.operate (.operate (.operate hserved _) _) _) _

/-- Calls of the module, before the last of which a module with nothing in it is registered. -/
def quittingLate : List Turn :=
  [.execute "close" [], .execute "quit" [], .register (.register "late" (.bytes emptyBytes)),
    .execute "close" []]

/-- A registered module restarts the session of the running instance: the standard output that
was closed is open again, and the exit code is gone. -/
theorem late_registration_restarts :
    Reachable quitting ∧ quitting.vm.stage = .instantiated ∧
    quitting.isMild quittingLate = true ∧
    (quitting.sights (quittingLate.filter fun turn => !turn.isLate)).map Sight.summary =
      [(.ok [.i32 0], none), (.ok [], some 7), (.ok [.i32 8], some 7)] ∧
    (quitting.sights quittingLate).map Sight.summary =
      [(.ok [.i32 0], none), (.ok [], some 7), (.ok [.i32 0], none)] ∧
    ¬ Sees (quitting.sights (quittingLate.filter fun turn => !turn.isLate))
      (quitting.sights quittingLate) := by
  have before :
      (quitting.sights (quittingLate.filter fun turn => !turn.isLate)).map Sight.summary =
        [(.ok [.i32 0], none), (.ok [], some 7), (.ok [.i32 8], some 7)] := by decide +kernel
  have late : (quitting.sights quittingLate).map Sight.summary =
      [(.ok [.i32 0], none), (.ok [], some 7), (.ok [.i32 0], none)] := by decide +kernel
  have mild : (quitting.vm.stage, quitting.isMild quittingLate) = (.instantiated, true) := by
    decide +kernel
  rw [Prod.mk.injEq] at mild
  refine ⟨reachable_quitting, mild.1, mild.2, before, late, fun seen => ?_⟩
  have typed : ∀ x ∈ quitting.sights (quittingLate.filter fun turn => !turn.isLate),
      x.answer ≠ .error illTyped := by
    intro x hx
    have answered := List.mem_map_of_mem (f := Sight.summary) hx
    rw [before] at answered
    change x.summary.1 ≠ _
    revert answered
    generalize x.summary = r
    revert r
    decide
  rw [seen.eq_of_typed typed, late] at before
  revert before
  decide

end Vm

end WasmEmbedding
