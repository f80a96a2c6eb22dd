import FlowchartSlides.Proofs.LinkGrammar

/-!
# Where the plain rule answers

The plain rule is tried behind that of connections. It takes the plain arrow alone, with
no text between bars, but any blanks between the arrow and the target. Every plain link
with nothing but spaces there is a connection as well, so the plain rule is left with
the lines in which each plain link has some other blank behind its arrow.
-/
namespace FlowchartSlides.Flowchart

/-- A line cut into a plain link and what stands around it. -/
structure PlainCut where
  before : List Char
  source : List Char
  lead : List Char
  gap : List Char
  target : List Char
  after : List Char

namespace PlainCut

def line (k : PlainCut) : List Char :=
  k.before ++ (k.source ++ (k.lead ++ ('-' :: '-' :: '>' :: (k.gap ++ (k.target ++ k.after)))))

/-- Two ids with the plain arrow and blanks between them. -/
structure IsPlainLink (k : PlainCut) : Prop where
  source : IsWord k.source
  lead : Text.Blanks k.lead
  gap : Text.Blanks k.gap
  target : IsWord k.target

/-- The same cut as one of a connection. -/
def asLink (k : PlainCut) : LinkCut :=
  ⟨k.before, k.source, k.lead, ['-', '-', '>'], none, k.gap, k.target, k.after⟩

variable {k : PlainCut}

theorem IsPlainLink.isLink_asLink (h : k.IsPlainLink) (hgap : ∀ c ∈ k.gap, c = ' ') :
    k.asLink.IsLink :=
  ⟨h.source, h.lead, .plain, fun _ hmem => absurd hmem (by simp [asLink]), hgap, h.target⟩

end PlainCut

variable {line : List Char} {st : Statement}

/-- The plain rule answers when the two rules before it do not. -/
theorem classify?_eq_plainConnection_iff : classify? line = some (.plainConnection, st) ↔
    definition? line = none ∧ connection? line = none ∧ plainConnection? line = some st := by
  simp only [classify?, Rule.all, List.findSome?_cons, Rule.apply, List.findSome?_nil]
  cases definition? line with
  | some st' => simp
  | none =>
    cases connection? line with
    | some st' => simp
    | none =>
      cases plainConnection? line with
      | some st' => simp
      | none => cases subgraph? line <;> simp

/-- What the plain rule reads is a plain link of the line, with the whole of its ids. -/
theorem exists_of_plainConnection? (h : plainConnection? line = some st) :
    ∃ k : PlainCut, k.IsPlainLink ∧ line = k.line ∧ EndsOutside k.before ∧
      StartsOutside k.after ∧ st = .edge (plainEdge k.source k.target) := by
  obtain ⟨⟨source, target⟩, hfirst, rfl⟩ := Option.map_eq_some_iff.mp h
  obtain ⟨before, hfound⟩ := exists_foundBehind growsLeft_sourced? hfirst
  obtain ⟨c, cs, hcut, -, hsourced⟩ := hfound.gives
  obtain ⟨hsource, rest, hrest, hplain⟩ := exists_of_sourced? hsourced
  obtain ⟨lead, hlead, hpad⟩ := Text.exists_trimStart rest
  obtain ⟨behind, harrow, hword⟩ := Option.bind_eq_some_iff.mp hplain
  obtain ⟨gap, hgap, hbehind⟩ := Text.exists_trimStart behind
  obtain ⟨htarget, after, hafter, hout⟩ := exists_of_word? hword
  refine ⟨⟨before, source, lead, gap, target, after⟩, ⟨hsource, hlead, hgap, htarget⟩, ?_,
    hfound.ends, hout, rfl⟩
  calc line = before ++ (source ++ (lead ++ Text.trimStart rest)) := by rw [hcut, hrest, ← hpad]
    _ = before ++ (source ++ (lead ++ ('-' :: '-' :: '>' :: (gap ++ (target ++ after))))) := by
      rw [Text.eq_append_of_dropLead? harrow, ← hafter, ← hbehind]
      rfl

theorem PlainCut.IsPlainLink.fitsBehind {k : PlainCut} (h : k.IsPlainLink) :
    FitsBehind (sourced? plainLink?) false k.line k.before := by
  have htip : Text.dropLead? ['-', '-', '>'] ('-' :: '-' :: '>' :: (k.gap ++
      (k.target ++ k.after))) = some (k.gap ++ (k.target ++ k.after)) :=
    Text.dropLead?_append ['-', '-', '>'] _
  have hplain : (plainLink? (Text.trimStart (k.lead ++
      ('-' :: '-' :: '>' :: (k.gap ++ (k.target ++ k.after)))))).isSome := by
    have harrow : ∀ rest, Text.trimStart ('-' :: rest) = '-' :: rest := fun _ => rfl
    rw [h.lead.trimStart_append, harrow, plainLink?, htip, Option.bind_some,
      h.gap.trimStart_append, h.target.trimStart_append]
    exact isSome_word? h.target
  have hfits := isSome_sourced? h.source hplain
  obtain ⟨c, s, hsource, hc, -⟩ := h.source.exists_cons
  rw [hsource] at hfits
  refine fitsBehind_of_split ?_ hc hfits
  rw [PlainCut.line, hsource]
  rfl

/-- Wherever a plain link is written the plain rule reads one. -/
theorem PlainCut.IsPlainLink.isSome_plainConnection? {k : PlainCut} (h : k.IsPlainLink) :
    (plainConnection? k.line).isSome := by
  rw [plainConnection?, Option.isSome_map]
  exact isSome_firstAtWord? growsLeft_sourced? h.fitsBehind

/-- A plain link with nothing but spaces behind its arrow is a connection. -/
theorem isSome_connection?_of_spaces {k : PlainCut} (h : k.IsPlainLink)
    (hgap : ∀ c ∈ k.gap, c = ' ') (hline : '\n' ∉ k.line) : (connection? k.line).isSome := by
  have hfits := (h.isLink_asLink hgap).fitsBehind hline
  rw [connection?, Option.isSome_map]
  exact isSome_firstAtWord? growsLeft_sourced? hfits

/-- Behind the rules of definitions and connections the plain rule answers exactly when a
plain link is written in the line. Then every plain link of the line has a blank other than
the space behind its arrow. The edge is that of one of these links, whose ids go on neither
before the link nor behind it; it is solid, directed and without label. -/
theorem plainConnection_grammar (hline : '\n' ∉ line) :
    ((classify? line).map (·.1) = some .plainConnection ↔
      definition? line = none ∧ connection? line = none ∧
        ∃ k : PlainCut, k.IsPlainLink ∧ line = k.line) ∧
    ∀ st, classify? line = some (.plainConnection, st) →
      (∀ k : PlainCut, k.IsPlainLink → line = k.line → ∃ c ∈ k.gap, c ≠ ' ') ∧
      ∃ k : PlainCut, k.IsPlainLink ∧ line = k.line ∧ EndsOutside k.before ∧
        StartsOutside k.after ∧
        st = .edge ⟨String.ofList k.source, String.ofList k.target, none, .solid, true⟩ := by
  refine ⟨⟨fun hrule => ?_, ?_⟩, fun st h => ?_⟩
  · obtain ⟨⟨r, st⟩, hclass, rfl⟩ := Option.map_eq_some_iff.mp hrule
    obtain ⟨hdef, hconnection, hplain⟩ := classify?_eq_plainConnection_iff.mp hclass
    obtain ⟨k, hk, hcut, -⟩ := exists_of_plainConnection? hplain
    exact ⟨hdef, hconnection, k, hk, hcut⟩
  · rintro ⟨hdef, hconnection, k, hk, rfl⟩
    obtain ⟨st, hplain⟩ := Option.isSome_iff_exists.mp hk.isSome_plainConnection?
    rw [classify?_eq_plainConnection_iff.mpr ⟨hdef, hconnection, hplain⟩]
    rfl
  · obtain ⟨-, hnone, hplain⟩ := classify?_eq_plainConnection_iff.mp h
    refine ⟨?_, exists_of_plainConnection? hplain⟩
    rintro k hk rfl
    by_contra hspaces
    push Not at hspaces
    have hconnection := isSome_connection?_of_spaces hk hspaces hline
    rw [hnone] at hconnection
    exact Bool.false_ne_true hconnection

/-- A tab behind the arrow; the ids of dashes are read in full. -/
theorem plainConnection_grammar_tab :
    '\n' ∉ "x -> - -->\t   -B.".toList ∧
      classify? "x -> - -->\t   -B.".toList =
        some (.plainConnection, .edge ⟨"-", "-B", none, .solid, true⟩) ∧
      (∀ k : PlainCut, k.IsPlainLink → "x -> - -->\t   -B.".toList = k.line →
        ∃ c ∈ k.gap, c ≠ ' ') ∧
      ∃ k : PlainCut, k.IsPlainLink ∧ "x -> - -->\t   -B.".toList = k.line ∧
        EndsOutside k.before ∧ StartsOutside k.after ∧
        Statement.edge ⟨"-", "-B", none, .solid, true⟩ =
          .edge ⟨String.ofList k.source, String.ofList k.target, none, .solid, true⟩ := by
  have hline : '\n' ∉ "x -> - -->\t   -B.".toList := by decide
  have hread : classify? "x -> - -->\t   -B.".toList =
      some (.plainConnection, .edge ⟨"-", "-B", none, .solid, true⟩) := by decide
  exact ⟨hline, hread, (plainConnection_grammar hline).2 _ hread⟩

end FlowchartSlides.Flowchart
