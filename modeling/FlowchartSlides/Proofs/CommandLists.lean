import FlowchartSlides.Proofs.Drawing
import FlowchartSlides.Slide.Adjustment

/-!
# Lists of commands

Commands run one after the other, so that a list can be cut anywhere: what
follows the cut runs on the canvas that the commands before it leave. One
command is carried out as a whole or not at all, and only a connector can be
refused. Hence a list that fails has stopped at one place, with everything
before that place done and nothing of what stands there; and a list that does
not fail accounts for each of its commands.
-/
namespace FlowchartSlides

namespace Adjustment

/-- The element that a command edits, if it is an edit. -/
def target? : Adjustment → Option String
  | moveNode id .. | resizeNode id .. | changeNodeStyle id _ => some id
  | addNode _ | addConnector _ => none

/-- The target of an edit, when a canvas does not have it. -/
def missing? (c : Canvas) (a : Adjustment) : Option String :=
  a.target?.filter fun id => !c.contains id

end Adjustment

namespace AdjustReport

/-- The report of two lists of commands of which the second ran after the first. -/
def append (r s : AdjustReport) : AdjustReport :=
  ⟨r.applied + s.applied, r.unknownIds ++ s.unknownIds⟩

/-- How many commands a report accounts for. -/
def total (r : AdjustReport) : Nat := r.applied + r.unknownIds.length

@[simp] theorem empty_append (r : AdjustReport) : empty.append r = r := by
  simp [append, empty]

theorem prepend_append (unknown : Option String) (r s : AdjustReport) :
    (r.prepend unknown).append s = (r.append s).prepend unknown := by
  cases unknown <;> simp [append, prepend, Nat.add_right_comm]

@[simp] theorem unknownIds_prepend (unknown : Option String) (r : AdjustReport) :
    (r.prepend unknown).unknownIds = unknown.toList ++ r.unknownIds := by
  cases unknown <;> rfl

@[simp] theorem total_prepend (unknown : Option String) (r : AdjustReport) :
    (r.prepend unknown).total = r.total + 1 := by
  cases unknown <;> simp only [prepend, total, List.length_cons] <;> omega

end AdjustReport

/-- Whether a run ended well. -/
def AdjustRun.Succeeds (run : AdjustRun) : Prop := ∃ report, run.outcome = .ok report

namespace Canvas

variable {c : Canvas} {a : Adjustment} {as bs : List Adjustment}

/-- Whether a canvas lacks one of the two shapes that a connector needs. -/
def Lacks (c : Canvas) (spec : ConnectorSpec) : Prop :=
  c.shape? spec.source = none ∨ c.shape? spec.target = none

/-- Only a connector is refused, for want of an end, and the refusal names both ends. -/
theorem adjustOne_eq_error_iff {m : MissingEndpoint} :
    c.adjustOne a = .error m ↔
      ∃ spec, a = .addConnector spec ∧ m = ⟨spec.source, spec.target⟩ ∧ c.Lacks spec := by
  cases a with
  | addConnector spec =>
    have hsame : c.adjustOne (.addConnector spec) = .error m ↔ c.addConnector spec = .error m := by
      rw [adjustOne]
      cases c.addConnector spec <;> simp [Except.map]
    rw [hsame, addConnector_eq_error_iff]
    constructor
    · rintro ⟨hm, hlacks⟩
      exact ⟨spec, rfl, hm, hlacks⟩
    · rintro ⟨_, ⟨⟩, hm, hlacks⟩
      exact ⟨hm, hlacks⟩
  | _ => simp [adjustOne]

/-- A command for a connector that is carried out has drawn it. -/
theorem exists_of_adjustOne_addConnector {spec : ConnectorSpec} {step : AdjustStep}
    (h : c.adjustOne (.addConnector spec) = .ok step) :
    ∃ c', c.addConnector spec = .ok c' ∧ step = ⟨c', [], none⟩ := by
  rw [adjustOne] at h
  cases hadd : c.addConnector spec with
  | error m => simp [hadd, Except.map] at h
  | ok c' =>
    rw [hadd] at h
    exact ⟨c', rfl, (Except.ok.inj h).symm⟩

theorem unknown_edit (c : Canvas) (command id : String) (notices : List Notice)
    (f : Element → Element) :
    (c.edit command id notices f).unknown = (some id).filter fun id => !c.contains id := by
  rw [edit]
  cases h : c.contains id <;> simp [Option.filter, h]

/-- A command that is carried out reports its target when that is missing. -/
theorem unknown_of_adjustOne {step : AdjustStep} (h : c.adjustOne a = .ok step) :
    step.unknown = a.missing? c := by
  cases a with
  | addConnector spec =>
    obtain ⟨_, -, rfl⟩ := exists_of_adjustOne_addConnector h
    rfl
  | addNode spec =>
    obtain rfl := Except.ok.inj h
    rfl
  | _ =>
    obtain rfl := Except.ok.inj h
    exact unknown_edit c _ _ _ _

theorem adjust_cons_error {m : MissingEndpoint} (h : c.adjustOne a = .error m) :
    c.adjust (a :: as) = ⟨c, [], .error m⟩ := by
  rw [adjust, h]

theorem adjust_cons_ok {step : AdjustStep} (h : c.adjustOne a = .ok step) :
    c.adjust (a :: as) =
      ⟨(step.canvas.adjust as).canvas, step.notices ++ (step.canvas.adjust as).notices,
        (step.canvas.adjust as).outcome.map (·.prepend step.unknown)⟩ := by
  rw [adjust, h]

/-- Commands after a list that was carried out run on the canvas that it leaves. -/
theorem adjust_append {report : AdjustReport} (h : (c.adjust as).outcome = .ok report) :
    c.adjust (as ++ bs) =
      ⟨((c.adjust as).canvas.adjust bs).canvas,
        (c.adjust as).notices ++ ((c.adjust as).canvas.adjust bs).notices,
        ((c.adjust as).canvas.adjust bs).outcome.map report.append⟩ := by
  induction as generalizing c report with
  | nil =>
    obtain rfl := Except.ok.inj h
    have hid : ∀ o : Except MissingEndpoint AdjustReport,
        o.map AdjustReport.empty.append = o := by
      intro o
      cases o <;> simp [Except.map]
    simp [adjust, hid]
  | cons a as ih =>
    cases hstep : c.adjustOne a with
    | error m => simp [adjust_cons_error hstep] at h
    | ok step =>
      rw [adjust_cons_ok hstep] at h ⊢
      cases hrest : (step.canvas.adjust as).outcome with
      | error m => simp [hrest, Except.map] at h
      | ok s =>
        rw [hrest] at h
        obtain rfl := Except.ok.inj h
        rw [List.cons_append, adjust_cons_ok hstep, ih hrest]
        simp only [List.append_assoc, AdjustRun.mk.injEq, true_and]
        cases (((step.canvas.adjust as).canvas).adjust bs).outcome with
        | error m => rfl
        | ok t => exact congrArg Except.ok (AdjustReport.prepend_append step.unknown s t).symm

/-- A list of commands stops at place `k`: those before it are carried out, and the
canvas that they leave lacks an end of the connector that comes next. -/
structure StopsAt (c : Canvas) (as : List Adjustment) (m : MissingEndpoint) (k : Nat) : Prop where
  carried : (c.adjust (as.take k)).Succeeds
  refused : ∃ spec, as[k]? = some (.addConnector spec) ∧ m = ⟨spec.source, spec.target⟩ ∧
    (c.adjust (as.take k)).canvas.Lacks spec

/-- A list that fails stops somewhere and leaves what the commands before have made. -/
theorem exists_stopsAt {m : MissingEndpoint} (h : (c.adjust as).outcome = .error m) :
    ∃ k, StopsAt c as m k ∧ (c.adjust as).canvas = (c.adjust (as.take k)).canvas := by
  induction as generalizing c with
  | nil => simp [adjust] at h
  | cons a as ih =>
    cases hstep : c.adjustOne a with
    | error m' =>
      rw [adjust_cons_error hstep] at h ⊢
      obtain rfl := Except.error.inj h
      obtain ⟨spec, rfl, hm, hlacks⟩ := adjustOne_eq_error_iff.mp hstep
      exact ⟨0, ⟨⟨.empty, rfl⟩, spec, rfl, hm, hlacks⟩, rfl⟩
    | ok step =>
      rw [adjust_cons_ok hstep] at h
      cases hrest : (step.canvas.adjust as).outcome with
      | ok s => simp [hrest, Except.map] at h
      | error m' =>
        rw [hrest] at h
        obtain rfl := Except.error.inj h
        obtain ⟨k, ⟨⟨s, hs⟩, hrefused⟩, hcanvas⟩ := ih hrest
        refine ⟨k + 1, ⟨⟨s.prepend step.unknown, ?_⟩, ?_⟩, ?_⟩
        · rw [List.take_succ_cons, adjust_cons_ok hstep, hs]
          rfl
        · rw [List.take_succ_cons, adjust_cons_ok hstep]
          exact hrefused
        · rw [List.take_succ_cons, adjust_cons_ok hstep, adjust_cons_ok hstep]
          exact hcanvas

/-- A list cannot be carried out beyond the place where it stops. -/
theorem StopsAt.not_succeeds {m : MissingEndpoint} {k n : Nat} (h : StopsAt c as m k)
    (hlt : k < n) : ¬ (c.adjust (as.take n)).Succeeds := by
  intro hn
  obtain ⟨⟨report, hreport⟩, spec, hspec, hm, hlacks⟩ := h
  have hcut : as.take n = as.take k ++ (.addConnector spec :: (as.take n).drop (k + 1)) := by
    obtain ⟨hk, hget⟩ := List.getElem?_eq_some_iff.mp hspec
    have hk' : k < (as.take n).length := by
      rw [List.length_take]
      omega
    have htake : (as.take n).take k = as.take k := by
      rw [List.take_take, Nat.min_eq_left (Nat.le_of_lt hlt)]
    rw [← htake, ← hget, ← List.getElem_take (h := hk'), ← List.drop_eq_getElem_cons hk',
      List.take_append_drop]
  have hone : (c.adjust (as.take k)).canvas.adjustOne (.addConnector spec) = .error m :=
    adjustOne_eq_error_iff.mpr ⟨spec, rfl, hm, hlacks⟩
  rw [hcut, adjust_append hreport, adjust_cons_error hone] at hn
  obtain ⟨_, hfalse⟩ := hn
  simp [Except.map] at hfalse

theorem StopsAt.unique {m m' : MissingEndpoint} {k k' : Nat} (h : StopsAt c as m k)
    (h' : StopsAt c as m' k') : k = k' := by
  rcases Nat.lt_trichotomy k k' with hlt | heq | hlt
  · exact absurd h'.carried (h.not_succeeds hlt)
  · exact heq
  · exact absurd h.carried (h'.not_succeeds hlt)

/-- The targets that commands name in vain: each command is held against the canvas
that the commands before it leave. -/
def missed (c : Canvas) (as : List Adjustment) : List String :=
  (List.range as.length).filterMap fun k =>
    as[k]?.bind (·.missing? (c.adjust (as.take k)).canvas)

theorem missed_cons {step : AdjustStep} (h : c.adjustOne a = .ok step) :
    c.missed (a :: as) = (a.missing? c).toList ++ step.canvas.missed as := by
  have hlater : ∀ k, (a :: as)[k + 1]?.bind
      (·.missing? (c.adjust ((a :: as).take (k + 1))).canvas) =
      as[k]?.bind (·.missing? (step.canvas.adjust (as.take k)).canvas) := by
    intro k
    rw [List.take_succ_cons, adjust_cons_ok h, List.getElem?_cons_succ]
  rw [missed, List.length_cons, List.range_succ_eq_map, List.filterMap_cons, List.filterMap_map]
  simp only [Function.comp_def, Nat.succ_eq_add_one, hlater]
  cases hmissing : a.missing? c <;> simp [missed, adjust, hmissing]

/-- A list that is carried out accounts for each of its commands. -/
theorem report_of_adjust {report : AdjustReport} (h : (c.adjust as).outcome = .ok report) :
    report.total = as.length ∧ report.unknownIds = c.missed as := by
  induction as generalizing c report with
  | nil =>
    obtain rfl := Except.ok.inj h
    exact ⟨rfl, rfl⟩
  | cons a as ih =>
    cases hstep : c.adjustOne a with
    | error m => simp [adjust_cons_error hstep] at h
    | ok step =>
      rw [adjust_cons_ok hstep] at h
      cases hrest : (step.canvas.adjust as).outcome with
      | error m => simp [hrest, Except.map] at h
      | ok s =>
        rw [hrest] at h
        obtain rfl := Except.ok.inj h
        obtain ⟨htotal, hunknown⟩ := ih hrest
        constructor
        · rw [AdjustReport.total_prepend, htotal, List.length_cons]
        · rw [AdjustReport.unknownIds_prepend, hunknown, unknown_of_adjustOne hstep,
            missed_cons hstep]

/-- Lists of commands run one after the other as one list, and their reports add up. A
list that fails has stopped at exactly one place: the commands before it were carried
out, the next one asks for a connector of which the canvas lacks an end, the refusal
names its ends, and the canvas is as those before have left it. A list that is carried
out reports on each of its commands, and names the targets that were missing when
their commands ran. -/
theorem adjust_sequential (c : Canvas) (first rest : List Adjustment) :
    (∀ report, (c.adjust first).outcome = .ok report →
      (c.adjust (first ++ rest)).canvas = ((c.adjust first).canvas.adjust rest).canvas ∧
        (c.adjust (first ++ rest)).outcome =
          ((c.adjust first).canvas.adjust rest).outcome.map report.append) ∧
      (∀ m, (c.adjust first).outcome = .error m →
        ∃! k, StopsAt c first m k ∧
          (c.adjust first).canvas = (c.adjust (first.take k)).canvas) ∧
      ∀ report, (c.adjust first).outcome = .ok report →
        report.applied + report.unknownIds.length = first.length ∧
          report.unknownIds = c.missed first := by
  refine ⟨fun report h => ?_, fun m h => ?_, fun report h => report_of_adjust h⟩
  · rw [adjust_append h]
    exact ⟨rfl, rfl⟩
  · obtain ⟨k, hstops, hcanvas⟩ := exists_stopsAt h
    exact ⟨k, ⟨hstops, hcanvas⟩, fun _ h' => h'.1.unique hstops⟩

/-- A move that names a missing node, a node that arrives later, and a connector that
lacks one end: the list stops at its last command but one. -/
theorem adjust_sequential_missing_end :
    let c := new default default
    let first := [.moveNode "B" 1 2, .addNode { id := some "A" }]
    let rest := [.moveNode "A" 3 4, .addConnector { source := "A", target := "C" },
      .addNode { id := some "C" }]
    (c.adjust first).outcome = .ok ⟨1, ["B"]⟩ ∧ c.missed first = ["B"] ∧
      (c.adjust (first ++ rest)).canvas = ((c.adjust first).canvas.adjust rest).canvas ∧
      (c.adjust (first ++ rest)).outcome = .error ⟨"A", "C"⟩ ∧
      ∃! k, StopsAt c (first ++ rest) ⟨"A", "C"⟩ k ∧
        (c.adjust (first ++ rest)).canvas = (c.adjust ((first ++ rest).take k)).canvas := by
  intro c first rest
  obtain ⟨hcut, -, hreport⟩ := adjust_sequential c first rest
  obtain ⟨-, hstop, -⟩ := adjust_sequential c (first ++ rest) []
  exact ⟨rfl, (hreport ⟨1, ["B"]⟩ rfl).2.symm, (hcut ⟨1, ["B"]⟩ rfl).1, rfl,
    hstop ⟨"A", "C"⟩ rfl⟩

end Canvas

end FlowchartSlides
