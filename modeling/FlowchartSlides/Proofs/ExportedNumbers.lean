import FlowchartSlides.Proofs.BoundedGeometry
import FlowchartSlides.Settings.Reading
import FlowchartSlides.Slide.Command

/-!
# Numbers in the export

A number that is not finite is exported as null. From moderate lengths no such
number arises: `adjusted_export_numbers` says that whatever is built and adjusted
has a number in every field of its position. Without that bound it can happen, for
a document may hold a number that is finite in 64 bits but not in 32.
-/
namespace FlowchartSlides

open Float.Model (Format)
open Float.Model.UnpackedFloat (unpack unpackExponent)

namespace Decimal

/-- The exponent field of a number, as the digits of its pattern and as a part of it. -/
theorem toNat_unpackExponent (b : BitVec Format.binary32.numBits) :
    (@unpackExponent .binary32 b).toNat = b.toNat / 2 ^ 23 % 2 ^ 8 := by
  show b.toNat >>> 23 % 2 ^ 8 = b.toNat / 2 ^ 23 % 2 ^ 8
  rw [Nat.shiftRight_eq_div_pow]

theorem isFinite_unpack (b : BitVec Format.binary32.numBits) :
    (unpack .binary32 b).isFinite = true ↔ b.toNat / 2 ^ 23 % 2 ^ 8 ≠ 255 := by
  rw [← toNat_unpackExponent, unpack]
  split
  next htop =>
    have hfield : (@unpackExponent .binary32 b).toNat = 255 := by rw [htop]; rfl
    split <;> simp [hfield, Float.Model.UnpackedFloat.isFinite]
  next htop =>
    have hfield : (@unpackExponent .binary32 b).toNat ≠ 255 :=
      fun h => htop (BitVec.eq_of_toNat_eq h)
    refine iff_of_true ?_ hfield
    split
    next => split <;> rfl
    next => rfl

/-- Exactly the finite numbers have a text. -/
theorem isSome_exported? (x : Float32) : (exported? x).isSome = true ↔ x.isFinite = true := by
  have hfield : x.toBits.toNat / twoPow single.fractionBits % twoPow single.exponentBits =
      x.toBits.toNat / 2 ^ 23 % 2 ^ 8 := rfl
  have htop : single.topField = 255 := rfl
  refine Iff.trans ?_ (isFinite_unpack x.toBits.toBitVec).symm
  show _ ↔ x.toBits.toNat / 2 ^ 23 % 2 ^ 8 ≠ 255
  simp only [exported?, Reading.ofBits, hfield, htop]
  split
  next h => split <;> exact iff_of_false Bool.false_ne_true (not_not_intro h)
  next h => split <;> exact iff_of_true rfl h

/-- Whatever the layout, the text begins with a digit. -/
theorem isDigit_head?_lay (form : Form) (d : Numeral) :
    (form.lay d).toList.head?.any Char.isDigit = true := by
  have hdigit : ∀ c ∈ Nat.toDigits 10 d.digits, c.isDigit = true :=
    fun c hc => Nat.isDigit_of_mem_toDigits (by decide) (by decide) hc
  rw [Form.lay]
  cases hdigits : Nat.toDigits 10 d.digits with
  | nil => exact absurd hdigits Nat.toDigits_ne_nil
  | cons c cs =>
    have hc : c.isDigit = true := hdigit c (hdigits ▸ List.mem_cons_self)
    split
    next =>
      rw [plain]
      split
      next => simp
      next =>
        dsimp only
        split <;> simp [hc]
    next => cases cs <;> simp [scientific, hc]

/-- The text of a number is not that of null. -/
theorem ne_null_of_exported? {x : Float32} {text : String} (h : exported? x = some text) :
    text ≠ "null" := by
  obtain ⟨negative, v, rfl⟩ : ∃ negative v,
      text = signMark negative ++ exportForm.lay (shortest exportForm.tie v) := by
    rw [exported?] at h
    cases hreading : Reading.ofBits single x.toBits.toNat with
    | finite negative v =>
      rw [hreading] at h
      exact ⟨negative, v, (Option.some.inj h).symm⟩
    | _ =>
      rw [hreading] at h
      cases h
  intro hnull
  have hnull := congrArg (·.toList.head?) hnull
  have hdigit := isDigit_head?_lay exportForm (shortest exportForm.tie v)
  cases negative with
  | false =>
    have hlay : (exportForm.lay (shortest exportForm.tie v)).toList.head? = some 'n' := by
      simpa [signMark] using hnull
    rw [hlay] at hdigit
    exact absurd hdigit (by decide)
  | true => simp [signMark] at hnull

end Decimal

/-- Null stands in a document exactly for the numbers that are not finite. -/
theorem Json.Document.singleText_eq_null_iff (x : Float32) :
    singleText x = "null" ↔ x.isFinite = false := by
  have hsome := Decimal.isSome_exported? x
  rw [singleText]
  cases h : Decimal.exported? x with
  | none =>
    rw [h] at hsome
    exact iff_of_true rfl (Bool.eq_false_iff.mpr fun hx => Bool.false_ne_true (hsome.mpr hx))
  | some text =>
    rw [h] at hsome
    have hfinite : x.isFinite = true := hsome.mp rfl
    exact iff_of_false (Decimal.ne_null_of_exported? h) (by simp [hfinite])

/-- Whether a reading succeeds with a result of some kind can be found by reading. -/
instance decidableExistsOk {ε α : Type} {r : Except ε α} {P : α → Prop} [DecidablePred P] :
    Decidable (∃ a, r = .ok a ∧ P a) :=
  match r with
  | .ok a => decidable_of_iff (P a) ⟨fun h => ⟨a, rfl, h⟩, fun ⟨_, h, ha⟩ => Except.ok.inj h ▸ ha⟩
  | .error _ => isFalse fun ⟨_, h, _⟩ => nomatch h

namespace Canvas

/-- With a moderate layout, at most `2 ^ 20` nodes and moderate commands, every number in the view
of the canvas is finite and not exported as null, also after a command that fails. -/
theorem adjusted_export_numbers (settings : Settings) (source : String) (icons : IconMap)
    (commands : List Adjustment) (hlayout : ∀ x ∈ settings.layout.lengths, Moderate x)
    (hnodes : (Flowchart.ofText source).nodes.size ≤ 2 ^ 20)
    (hcommands : ∀ a ∈ commands, ∀ x ∈ a.lengths, Moderate x) :
    ∀ v ∈ ((ofFlowchart source icons settings).1.adjust commands).canvas.views,
      ∀ x ∈ v.rect.lengths, x.isFinite = true ∧ Json.Document.singleText x ≠ "null" := by
  intro v hv x hx
  obtain ⟨e, he, rfl⟩ := List.mem_map.mp hv
  have hbuilt : (ofFlowchart source icons settings).1.Near :=
    near_build (new settings.theme settings.layout) icons hlayout hnodes
  have hfinite : x.isFinite = true := ((hbuilt.adjust hcommands).elements e he).isFinite_box x hx
  refine ⟨hfinite, fun hnull => ?_⟩
  rw [(Json.Document.singleText_eq_null_iff x).mp hnull] at hfinite
  cases hfinite

/-- The greatest moderate numbers, for a connector as well. -/
theorem adjusted_export_numbers_at_limit :
    let commands : List Adjustment :=
      [.moveNode "A" moderateLimit (-moderateLimit), .resizeNode "connector_A_B" moderateLimit (-1),
        .addNode { id := some "C", x := some (-moderateLimit), width := some moderateLimit },
        .addConnector { source := "A", target := "C" }]
    let views := ((ofFlowchart "A --> B" ∅ .standard).1.adjust commands).canvas.views
    (∀ x ∈ Layout.standard.lengths, Moderate x) ∧
      (Flowchart.ofText "A --> B").nodes.size ≤ 2 ^ 20 ∧
      (∀ a ∈ commands, ∀ x ∈ a.lengths, Moderate x) ∧
      views.map (·.id) = ["A", "B", "connector_A_B", "C", "connector_A_C"] ∧
      ∀ v ∈ views, ∀ x ∈ v.rect.lengths,
        x.isFinite = true ∧ Json.Document.singleText x ≠ "null" := by
  intro commands views
  have hlayout : ∀ x ∈ Layout.standard.lengths, Moderate x := by decide +kernel
  have hnodes : (Flowchart.ofText "A --> B").nodes.size ≤ 2 ^ 20 := by decide +kernel
  have hcommands : ∀ a ∈ commands, ∀ x ∈ a.lengths, Moderate x := by decide +kernel
  exact ⟨hlayout, hnodes, hcommands, by decide +kernel,
    adjusted_export_numbers .standard "A --> B" ∅ commands hlayout hnodes hcommands⟩

/-- The settings, the source and the command are all accepted and the command is carried out, but
its number is beyond 32 bits: the shape stands at infinity, and the export has null there. -/
theorem adjusted_export_null :
    ∃ settings, Settings.ofText "\x7b\x7d" = .ok settings ∧ ∃ commands,
      Adjustment.ofText "[\x7b\"type\":\"moveNode\",\"nodeId\":\"A\",\"x\":1e39,\"y\":0\x7d]" =
        .ok commands ∧
      let run := (ofFlowchart "A[Start]" ∅ settings).1.adjust commands
      run.outcome = .ok ⟨1, []⟩ ∧ (∃ v ∈ run.canvas.views, v.rect.x.isFinite = false) ∧
        run.canvas.exported.pretty =
          "\x7b\n  \"elements\": [\n    \x7b\n      \"id\": \"A\",\n      \"type\": \"shape\",\n" ++
            "      \"text\": \"Start\",\n      \"position\": \x7b\n        \"x\": null,\n" ++
            "        \"y\": 0.0,\n        \"width\": 2.0,\n        \"height\": 1.0\n" ++
            "      \x7d\n    \x7d\n  ]\n\x7d" := by
  decide +kernel

end Canvas

end FlowchartSlides
