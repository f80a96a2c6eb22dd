import FlowchartSlides.Proofs.Rendering

/-!
# Chains of links

A line may hold a chain of links: an id, then arrows and ids in turn. One line gives one
edge, and a chain that starts with a plain or a thick arrow gives that of its first link.
A dotted arrow is tried as an arrow with a text inside, so it goes on to the last arrow
of dashes in the chain. The edge then leads to the id behind that arrow, and the ids in
between are a part of its label.
-/
namespace FlowchartSlides

namespace EdgeStyle

/-- What stands before the last mark and the tip of a plain token. -/
def shaft : EdgeStyle → List Char
  | .solid => ['-']
  | .thick => ['=']
  | .dotted => ['-', '.']

theorem token_eq (style : EdgeStyle) : style.token = style.shaft ++ [style.outer, '>'] := by
  cases style <;> rfl

theorem tip_not_mem_shaft (style : EdgeStyle) : '>' ∉ style.shaft := by cases style <;> decide

theorem dash_mem_shaft_iff (style : EdgeStyle) : '-' ∈ style.shaft ↔ style.outer = '-' := by
  cases style <;> decide

theorem outer_eq_dash_iff (style : EdgeStyle) : style.outer = '-' ↔ style ≠ .thick := by
  cases style <;> decide

theorem isArrowTrail_of_mem_token (style : EdgeStyle) :
    ∀ c ∈ style.token, Flowchart.isArrowTrail c = true := by
  cases style <;> exact List.all_eq_true.mp rfl

end EdgeStyle

namespace Flowchart

/-- An arrow and the id behind it. -/
structure ChainLink where
  style : EdgeStyle
  id : List Char

/-- An id and the links behind it, with single spaces. -/
def chainLine (source : List Char) : List ChainLink → List Char
  | [] => source
  | link :: links => source ++ ' ' :: (link.style.token ++ ' ' :: chainLine link.id links)

variable {source text rest : List Char} {first link : ChainLink}
  {links before after : List ChainLink}

theorem chainLine_append (source : List Char) (before : List ChainLink) (link : ChainLink)
    (after : List ChainLink) : chainLine source (before ++ link :: after) =
      chainLine source before ++ ' ' :: (link.style.token ++ ' ' :: chainLine link.id after) := by
  induction before generalizing source with
  | nil => rfl
  | cons link' before ih => simp [chainLine, ih]

/-- A chain goes on behind its first id with a space, if at all. -/
theorem exists_chainLine_eq (source : List Char) (links : List ChainLink) :
    ∃ rest, chainLine source links = source ++ rest ∧ StartsOutside rest := by
  cases links with
  | nil => exact ⟨[], (List.append_nil source).symm, startsOutside_nil⟩
  | cons link links =>
    refine ⟨_, rfl, fun c hc => ?_⟩
    obtain rfl : ' ' = c := by simpa using hc
    decide

theorem linkEnd?_chainLine (hsource : IsWord source) (links : List ChainLink) :
    linkEnd? (' ' :: chainLine source links) = some ⟨none, source⟩ := by
  obtain ⟨rest, hrest, hout⟩ := exists_chainLine_eq source links
  rw [hrest]
  have hspace : ∀ c ∈ [' '], c = ' ' := fun c hc => List.mem_singleton.mp hc
  exact linkEnd?_spaces hspace hsource hout

/-- Where a dash with a tip stands in a chain, one of its arrows ends. -/
theorem exists_of_tip (hsource : IsWord source) (hlinks : ∀ l ∈ links, IsWord l.id)
    (h : chainLine source links = text ++ '-' :: '>' :: rest) :
    ∃ before link after, links = before ++ link :: after ∧ link.style.outer = '-' ∧
      text = chainLine source before ++ ' ' :: link.style.shaft ∧
      rest = ' ' :: chainLine link.id after := by
  induction links generalizing source text with
  | nil =>
    have htip := hsource.not_mem (c := '>') (by decide)
    rw [chainLine] at h
    rw [h] at htip
    simp at htip
  | cons link links ih =>
    have hid := hlinks link List.mem_cons_self
    -- the first tip of the chain is that of its first arrow
    have hcut : (source ++ ' ' :: (link.style.shaft ++ [link.style.outer])) ++
        '>' :: ' ' :: chainLine link.id links = (text ++ ['-']) ++ '>' :: rest := by
      have hform : chainLine source (link :: links) = text ++ '-' :: '>' :: rest := h
      simpa [chainLine, link.style.token_eq] using hform
    have hfree : '>' ∉ source ++ ' ' :: (link.style.shaft ++ [link.style.outer]) := by
      have hword := hsource.not_mem (c := '>') (by decide)
      have houter : '>' ≠ link.style.outer := by cases link.style <;> decide
      simp [hword, link.style.tip_not_mem_shaft, houter]
    rcases cut_cases hfree hcut with ⟨htext, hrest⟩ | ⟨more, htext, hmore⟩
    · have hends : text ++ ['-'] =
          (source ++ ' ' :: link.style.shaft) ++ [link.style.outer] := by simpa using htext
      obtain ⟨hshaft, houter⟩ := List.append_inj' hends rfl
      exact ⟨[], link, links, rfl, (List.cons.inj houter).1.symm, hshaft, hrest⟩
    · -- a tip further on is one of the chain behind the first arrow
      rcases more with _ | ⟨c, more⟩
      · exact absurd (List.cons.inj hmore).1 (by decide)
      · obtain ⟨rfl, hrest⟩ := List.cons.inj hmore
        rcases List.eq_nil_or_concat more with rfl | ⟨text', d, rfl⟩
        · have hspace : text ++ ['-'] = (source ++ ' ' ::
              (link.style.shaft ++ [link.style.outer, '>'])) ++ [' '] := by simpa using htext
          exact absurd (List.append_inj' hspace rfl).2 (by decide)
        · have hends : text ++ ['-'] = (source ++ ' ' ::
              (link.style.token ++ ' ' :: text')) ++ [d] := by
            simpa [link.style.token_eq] using htext
          obtain ⟨htext', hd⟩ := List.append_inj' hends rfl
          obtain rfl := (List.cons.inj hd).1
          have hrest' : chainLine link.id links = text' ++ '-' :: '>' :: rest := by
            simpa using hrest
          obtain ⟨before, link', after, rfl, houter, rfl, hafter⟩ :=
            ih hid (fun l hl => hlinks l (List.mem_cons_of_mem _ hl)) hrest'
          exact ⟨link :: before, link', after, rfl, houter, by simp [htext', chainLine], hafter⟩

/-- A space before a chain is no part of a tip. -/
theorem exists_of_spaced_tip (hsource : IsWord source) (hlinks : ∀ l ∈ links, IsWord l.id)
    (h : ' ' :: chainLine source links = text ++ '-' :: '>' :: rest) :
    '-' ∈ text ∧ ∃ link ∈ links, link.style ≠ .thick := by
  rcases text with _ | ⟨c, text⟩
  · exact absurd (List.cons.inj h).1 (by decide)
  · obtain ⟨before, link, after, rfl, houter, rfl, -⟩ :=
      exists_of_tip hsource hlinks (List.cons.inj h).2
    refine ⟨?_, link, by simp, link.style.outer_eq_dash_iff.mp houter⟩
    simp [link.style.dash_mem_shaft_iff.mpr houter]

/-- A chain holds id characters, spaces and the marks of arrows. -/
theorem not_mem_chainLine {c : Char} (hc : isIdChar c = false) (hmark : c ∉ ['=', '.', '>', ' '])
    (hsource : IsWord source) (hlinks : ∀ l ∈ links, IsWord l.id) :
    c ∉ chainLine source links := by
  simp only [List.mem_cons, List.not_mem_nil, or_false, not_or] at hmark
  obtain ⟨heq, hdot, htip, hspace⟩ := hmark
  have hdash : c ≠ '-' := by
    rintro rfl
    exact absurd hc (by decide)
  induction links generalizing source with
  | nil => exact hsource.not_mem hc
  | cons link links ih =>
    have htoken : c ∉ link.style.token := by
      cases link.style <;> simp [EdgeStyle.token, hdash, heq, hdot, htip]
    have hrest := ih (hlinks link List.mem_cons_self)
      fun l hl => hlinks l (List.mem_cons_of_mem _ hl)
    simp [chainLine, hsource.not_mem hc, htoken, hrest, hspace]

/-- A chain ends in an id. -/
theorem getLast?_chainLine (hsource : IsWord source) (hlinks : ∀ l ∈ links, IsWord l.id) :
    ∃ c, (chainLine source links).getLast? = some c ∧ Text.isBlank c = false := by
  induction links generalizing source with
  | nil =>
    have hlast := List.getLast?_eq_some_getLast hsource.ne_nil
    exact ⟨_, hlast, hsource.isTrimmed.last _ hlast⟩
  | cons link links ih =>
    obtain ⟨c, hlast, hc⟩ := ih (hlinks link List.mem_cons_self)
      fun l hl => hlinks l (List.mem_cons_of_mem _ hl)
    exact ⟨c, by simp [chainLine, List.getLast?_append, List.getLast?_cons, hlast], hc⟩

/-- The first arrow ends at its own tip, unless it is dotted and dashes follow. -/
theorem link?_chainLine (hfirst : IsWord first.id) (hlinks : ∀ l ∈ links, IsWord l.id)
    (hthick : first.style = .dotted → ∀ l ∈ links, l.style = .thick) :
    link? (first.style.token ++ ' ' :: chainLine first.id links) =
      some ⟨first.style.token, ⟨none, first.id⟩⟩ := by
  refine link?_first first.style (linkEnd?_chainLine hfirst links) (fun _ => ?_) fun hdotted => ?_
  · -- every dash with a tip has a dash of its own arrow before it
    rw [Option.eq_none_iff_forall_ne_some]
    intro l hdashed
    obtain ⟨text, rest, hcut, hno, -⟩ := exists_of_dashedText? hdashed
    rcases text with _ | ⟨c, text⟩
    · exact absurd (List.cons.inj hcut).1 (by decide)
    · obtain ⟨hdash, -⟩ := exists_of_spaced_tip hfirst hlinks (List.cons.inj hcut).2
      exact hno (List.mem_cons_of_mem c hdash)
  · refine spanTo?_tip (by decide) fun text rest hcut => ?_
    obtain ⟨-, link, hmem, hstyle⟩ := exists_of_spaced_tip hfirst hlinks hcut
    exact absurd (hthick hdotted link hmem) hstyle

/-- A dotted arrow, the ids behind it, and the arrow that it reaches. -/
def reachingArrow (first : ChainLink) (before : List ChainLink) (link : ChainLink) : List Char :=
  EdgeStyle.dotted.token ++ ' ' :: (chainLine first.id before ++ ' ' :: link.style.token)

/-- What a dotted arrow spans when it reaches an arrow further on. -/
def reachedText (first : ChainLink) (before : List ChainLink) (link : ChainLink) : List Char :=
  '.' :: '-' :: '>' :: ' ' :: (chainLine first.id before ++ ' ' :: link.style.shaft)

theorem reachingArrow_eq (first : ChainLink) (before : List ChainLink)
    (houter : link.style.outer = '-') :
    reachingArrow first before link = '-' :: reachedText first before link ++ ['-', '>'] := by
  have hdotted : EdgeStyle.dotted.token = ['-', '.', '-', '>'] := rfl
  rw [reachingArrow, reachedText, hdotted, link.style.token_eq, houter]
  simp

theorem link?_reaching (hfirst : IsWord first.id)
    (hlinks : ∀ l ∈ before ++ link :: after, IsWord l.id) (hlink : link.style ≠ .thick)
    (hafter : ∀ l ∈ after, l.style = .thick) :
    link? (EdgeStyle.dotted.token ++ ' ' :: chainLine first.id (before ++ link :: after)) =
      some ⟨reachingArrow first before link, ⟨none, link.id⟩⟩ := by
  have houter := link.style.outer_eq_dash_iff.mpr hlink
  have hid : IsWord link.id := hlinks link (by simp)
  have hbefore : ∀ l ∈ before, IsWord l.id := fun l hl => hlinks l (by simp [hl])
  have hwords : ∀ l ∈ after, IsWord l.id := fun l hl => hlinks l (by simp [hl])
  have hline : '\n' ∉ reachedText first before link := by
    have hchain := not_mem_chainLine (c := '\n') (by decide) (by decide) hfirst hbefore
    have hshaft : '\n' ∉ link.style.shaft := by cases link.style <;> decide
    simp [reachedText, hchain, hshaft]
  have hlast : spanTo? '-' ('-' :: '>' :: ' ' :: chainLine link.id after) = none := by
    refine spanTo?_tip (by decide) fun text rest hcut => ?_
    obtain ⟨-, l, hmem, hstyle⟩ := exists_of_spaced_tip hid hwords hcut
    exact absurd (hafter l hmem) hstyle
  have hspan : spanningArrow? '-' ('-' :: (reachedText first before link ++
      '-' :: '>' :: ' ' :: chainLine link.id after)) =
        some ⟨'-' :: reachedText first before link ++ ['-', '>'], ⟨none, link.id⟩⟩ :=
    spanningArrow?_append '-' (List.cons_ne_nil _ _) hline (linkEnd?_chainLine hid after) hlast
  have hform : EdgeStyle.dotted.token ++ ' ' :: chainLine first.id (before ++ link :: after) =
      '-' :: (reachedText first before link ++ '-' :: '>' :: ' ' :: chainLine link.id after) := by
    have hdotted : EdgeStyle.dotted.token = ['-', '.', '-', '>'] := rfl
    rw [chainLine_append, reachedText, hdotted, link.style.token_eq, houter]
    simp
  rw [hform, reachingArrow_eq first before houter, ← hspan]
  exact link?_dotted _

/-- The ids that an arrow reaches over are its text, behind the tip of its first part. -/
theorem arrowText_reachingArrow (hfirst : IsWord first.id) (hbefore : ∀ l ∈ before, IsWord l.id)
    (link : ChainLink) : arrowText (reachingArrow first before link) =
      '>' :: ' ' :: chainLine first.id before := by
  have hform : reachingArrow first before link =
      ['-', '.', '-'] ++
        (('>' :: ' ' :: chainLine first.id before ++ [' ']) ++ link.style.token) := by
    simp [reachingArrow, EdgeStyle.token]
  have hlead : ∀ c ∈ ['-', '.', '-'], isArrowLead c = true := List.all_eq_true.mp rfl
  have hhead : ∀ c ∈ ('>' :: ' ' :: chainLine first.id before ++ [' ']).head?,
      isArrowLead c = false := by
    intro c hc
    obtain rfl : '>' = c := by simpa using hc
    rfl
  have hlast : ∀ c ∈ ('>' :: ' ' :: chainLine first.id before ++ [' ']).getLast?,
      isArrowTrail c = false := by
    intro c hc
    rw [List.getLast?_concat] at hc
    obtain rfl := Option.some.inj hc
    rfl
  have htrimmed : Text.IsTrimmed ('>' :: ' ' :: chainLine first.id before) := by
    obtain ⟨d, hend, hd⟩ := getLast?_chainLine hfirst hbefore
    constructor
    · intro c hc
      obtain rfl : '>' = c := by simpa using hc
      decide
    · intro c hc
      have hsame : some d = some c := by simpa [List.getLast?_cons, hend] using hc
      exact Option.some.inj hsame ▸ hd
  rw [hform, arrowText_between hlead (by simp) hhead hlast link.style.isArrowTrail_of_mem_token,
    Text.blanks_space.trim_append, htrimmed.trim_eq]

theorem edge_reaching (hfirst : IsWord first.id) (hbefore : ∀ l ∈ before, IsWord l.id)
    (link : ChainLink) (source : List Char) :
    Link.edge source ⟨reachingArrow first before link, ⟨none, link.id⟩⟩ =
      ⟨String.ofList source, String.ofList link.id,
        some (String.ofList ('>' :: ' ' :: chainLine first.id before)), .dotted, true⟩ := by
  have hstyle : arrowStyle (reachingArrow first before link) = .dotted := rfl
  have hend : ((reachingArrow first before link).getLast? == some '>') = true := by
    rw [reachingArrow, link.style.token_eq]
    simp [List.getLast?_append, List.getLast?_cons]
  have hlabel : Link.label ⟨reachingArrow first before link, ⟨none, link.id⟩⟩ =
      some ('>' :: ' ' :: chainLine first.id before) := by
    simp only [Link.label, Option.map_none, Option.getD_none,
      arrowText_reachingArrow hfirst hbefore link]
  simp only [Link.edge, hstyle, hend, hlabel, Option.map_some]

/-- A chain is read as the edge of the link that is found behind its first id. -/
theorem classify?_chainLine (hsource : IsWord source)
    (hlinks : ∀ l ∈ first :: links, IsWord l.id) {l : Link}
    (hl : link? (first.style.token ++ ' ' :: chainLine first.id links) = some l) :
    classify? (chainLine source (first :: links)) = some (.connection, .edge (l.edge source)) := by
  have hopen : '[' ∉ chainLine source (first :: links) :=
    not_mem_chainLine (by decide) (by decide) hsource hlinks
  have hstart : Text.trimStart
      (' ' :: (first.style.token ++ ' ' :: chainLine first.id links)) =
        first.style.token ++ ' ' :: chainLine first.id links := by
    cases first.style <;> rfl
  have hread : connection? (chainLine source (first :: links)) = some (.edge (l.edge source)) :=
    connection?_append hsource rfl (by rw [hstart, hl])
  exact classify?_of_connection? (definition?_eq_none hopen) hread

/-- The last arrow of dashes in a chain that has one. -/
theorem exists_last_dashes (h : ¬ ∀ l ∈ links, l.style = .thick) :
    ∃ before link after, links = before ++ link :: after ∧ link.style ≠ .thick ∧
      ∀ l ∈ after, l.style = .thick := by
  induction links with
  | nil => exact absurd (fun l hl => absurd hl List.not_mem_nil) h
  | cons link links ih =>
    by_cases hrest : ∀ l ∈ links, l.style = .thick
    · refine ⟨[], link, links, rfl, fun hthick => h fun l hl => ?_, hrest⟩
      rcases List.mem_cons.mp hl with rfl | hl
      · exact hthick
      · exact hrest l hl
    · obtain ⟨before, last, after, rfl, hlast, hafter⟩ := ih hrest
      exact ⟨link :: before, last, after, rfl, hlast, hafter⟩

/-- The edge of a link by itself. -/
def ChainLink.edge (source : List Char) (link : ChainLink) : Edge :=
  ⟨String.ofList source, String.ofList link.id, none, link.style, true⟩

theorem classify?_first (hsource : IsWord source) (hlinks : ∀ l ∈ first :: links, IsWord l.id)
    (hthick : first.style = .dotted → ∀ l ∈ links, l.style = .thick) :
    classify? (chainLine source (first :: links)) =
      some (.connection, .edge (first.edge source)) := by
  have hid := hlinks first List.mem_cons_self
  have hwords : ∀ l ∈ links, IsWord l.id := fun l hl => hlinks l (List.mem_cons_of_mem _ hl)
  rw [classify?_chainLine hsource hlinks (link?_chainLine hid hwords hthick),
    edge_token first.style source none (by simp) first.id]
  rfl

theorem classify?_reaching (hsource : IsWord source)
    (hlinks : ∀ l ∈ first :: (before ++ link :: after), IsWord l.id)
    (hdotted : first.style = .dotted) (hlink : link.style ≠ .thick)
    (hafter : ∀ l ∈ after, l.style = .thick) :
    classify? (chainLine source (first :: (before ++ link :: after))) =
      some (.connection, .edge ⟨String.ofList source, String.ofList link.id,
        some (String.ofList ('>' :: ' ' :: chainLine first.id before)), .dotted, true⟩) := by
  have hid := hlinks first List.mem_cons_self
  have hwords : ∀ l ∈ before ++ link :: after, IsWord l.id :=
    fun l hl => hlinks l (List.mem_cons_of_mem _ hl)
  have hbefore : ∀ l ∈ before, IsWord l.id :=
    fun l hl => hwords l (List.mem_append_left _ hl)
  have hread := link?_reaching hid hwords hlink hafter
  rw [← hdotted] at hread
  rw [classify?_chainLine hsource hlinks hread, edge_reaching hid hbefore link source]

/-- A chain gives the edge of its first link exactly when its first arrow is not dotted,
or only thick arrows follow. Otherwise the edge leads to the id behind the last arrow of
dashes, and the chain before that arrow is its label. -/
theorem chain_reads_first_iff (hsource : IsWord source)
    (hlinks : ∀ l ∈ first :: links, IsWord l.id) :
    (classify? (chainLine source (first :: links)) =
        some (.connection, .edge (first.edge source)) ↔
      (first.style = .dotted → ∀ l ∈ links, l.style = .thick)) ∧
    ∀ before link after, first.style = .dotted → links = before ++ link :: after →
      link.style ≠ .thick → (∀ l ∈ after, l.style = .thick) →
      classify? (chainLine source (first :: links)) =
        some (.connection, .edge ⟨String.ofList source, String.ofList link.id,
          some (String.ofList ('>' :: ' ' :: chainLine first.id before)), .dotted, true⟩) := by
  refine ⟨⟨fun hread hdotted => ?_, classify?_first hsource hlinks⟩, ?_⟩
  · by_contra hdashes
    obtain ⟨before, link, after, rfl, hlink, hafter⟩ := exists_last_dashes hdashes
    rw [classify?_reaching hsource hlinks hdotted hlink hafter] at hread
    simp [ChainLink.edge] at hread
  · rintro before link after hdotted rfl hlink hafter
    exact classify?_reaching hsource hlinks hdotted hlink hafter

/-- Three dialects with ids of dashes: the plain arrow in front ends at once, and the
dotted one reaches over the id behind it. -/
theorem chain_reads_first_mixed :
    (∀ l ∈ [⟨.solid, ['-']⟩, ⟨.dotted, ['b']⟩, ⟨.thick, ['c']⟩], IsWord (ChainLink.id l)) ∧
      classify? "a- --> - -.-> b ==> c".toList =
        some (.connection, .edge ⟨"a-", "-", none, .solid, true⟩) ∧
      (∀ l ∈ [⟨.dotted, ['-']⟩, ⟨.solid, ['b']⟩, ⟨.thick, ['c']⟩], IsWord (ChainLink.id l)) ∧
      classify? "a- -.-> - --> b ==> c".toList =
        some (.connection, .edge ⟨"a-", "b", some "> -", .dotted, true⟩) := by
  have hsource : IsWord ['a', '-'] := by decide
  have hsolid : ∀ l ∈ [⟨.solid, ['-']⟩, ⟨.dotted, ['b']⟩, ⟨.thick, ['c']⟩],
      IsWord (ChainLink.id l) := by decide
  have hdotted : ∀ l ∈ [⟨.dotted, ['-']⟩, ⟨.solid, ['b']⟩, ⟨.thick, ['c']⟩],
      IsWord (ChainLink.id l) := by decide
  refine ⟨hsolid, (chain_reads_first_iff hsource hsolid).1.mpr (by decide), hdotted, ?_⟩
  exact (chain_reads_first_iff hsource hdotted).2 [] ⟨.solid, ['b']⟩ [⟨.thick, ['c']⟩] rfl rfl
    (by decide) (by decide)

/-- The edge from the first id leads past the second one, which is lost. -/
theorem chain_of_dots_skips :
    classify? "A -.-> B -.-> C".toList =
        some (.connection, .edge ⟨"A", "C", some "> B", .dotted, true⟩) ∧
      classify? "A -.-> B -.-> C".toList ≠
        some (.connection, .edge ⟨"A", "B", none, .dotted, true⟩) := by
  decide

end Flowchart

end FlowchartSlides
