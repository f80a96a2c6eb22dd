import FlowchartSlides.Assistant.Reply
import FlowchartSlides.Proofs.Trimming

/-!
# Replies in a code block

A code block around the content of a reply does not change what is read: whatever stands on the
line of the opening fence, the readers get the trimmed content (`unfenced_closed`), and so they find
the same value or the same fault. A reply that was cut off before the closing fence is read in the
same way (`unfenced_unclosed`), as long as its content is not blank and ends with no fence of its
own.
-/
namespace FlowchartSlides.Assistant

variable {cs lead info body content trail : List Char}

/-- Two replies of which the readers get the same text, so that a fault also stands at the same place
of it. -/
structure ReadAlike (r s : String) : Prop where
  text : unfenced r.toList = unfenced s.toList
  draft : draftOfReply r = draftOfReply s
  icons : iconsOfReply r = iconsOfReply s

/-- A reply with its content behind an opening fence, in front of what closes the block, and all of
it between blanks. -/
def inBlock (lead info content close trail : String) : String :=
  lead ++ "```" ++ info ++ "\n" ++ content ++ close ++ trail

theorem readAlike_of_unfenced_eq {r s : String} (h : unfenced r.toList = unfenced s.toList) :
    ReadAlike r s where
  text := h
  draft := by rw [draftOfReply, draftOfReply, h]
  icons := by rw [iconsOfReply, iconsOfReply, h]

/-- A text that does not begin with a fence is only trimmed. -/
theorem unfenced_eq_trim (h : ¬fence <+: Text.trim cs) : unfenced cs = Text.trim cs := by
  simp only [unfenced, Text.dropLead?_eq_none_iff.mpr h]

theorem afterFirstLine_append (h : '\n' ∉ info) (rest : List Char) :
    afterFirstLine (info ++ '\n' :: rest) = rest := by
  have hinfo : ∀ c ∈ info, (c != '\n') = true := fun c hc =>
    bne_iff_ne.mpr fun he => h (he ▸ hc)
  rw [afterFirstLine, List.dropWhile_append_of_pos hinfo, List.dropWhile_cons_of_neg (by decide)]

theorem getLast?_append_fence (cs : List Char) : (cs ++ fence).getLast? = some '\x60' := by
  rw [List.getLast?_append]
  rfl

/-- Of several fences at the end, one is taken off. -/
theorem dropClosing_append (cs : List Char) : dropClosing (cs ++ fence) = cs := by
  have htrim : Text.trimEnd (cs ++ fence) = cs ++ fence := by
    apply Text.trimEnd_eq_self
    rw [getLast?_append_fence]
    intro c hc
    obtain rfl : '\x60' = c := Option.some.inj hc
    decide
  have hdrop : Text.dropLead? fence (cs ++ fence).reverse = some cs.reverse := by
    rw [List.reverse_append]
    exact Text.dropLead?_append fence cs.reverse
  simp only [dropClosing, htrim, hdrop, List.reverse_reverse]

theorem dropClosing_eq_self (h : ¬fence <:+ Text.trimEnd cs) : dropClosing cs = cs := by
  have hreverse : ¬fence <+: (Text.trimEnd cs).reverse := by
    rwa [← List.reverse_prefix] at h
  simp only [dropClosing, Text.dropLead?_eq_none_iff.mpr hreverse]

/-- Between blanks, an opening fence with anything on its line is taken off. -/
theorem unfenced_opened (hlead : Text.Blanks lead) (htrail : Text.Blanks trail)
    (hinfo : '\n' ∉ info) {c : Char} (hlast : body.getLast? = some c)
    (hc : Text.isBlank c = false) :
    unfenced (lead ++ ((fence ++ (info ++ '\n' :: body)) ++ trail)) =
      Text.trim (dropClosing body) := by
  have htrimmed : Text.IsTrimmed (fence ++ (info ++ '\n' :: body)) := by
    constructor
    · intro d hd
      obtain rfl : '\x60' = d := Option.some.inj hd
      decide
    · rw [List.getLast?_append, List.getLast?_append, List.getLast?_cons, hlast]
      intro d hd
      obtain rfl : c = d := Option.some.inj hd
      exact hc
  simp only [unfenced, htrimmed.trim_pad hlead htrail, Text.dropLead?_append,
    afterFirstLine_append hinfo]

/-- Of a closed block, the trimmed content is left. -/
theorem unfenced_closed (hlead : Text.Blanks lead) (htrail : Text.Blanks trail)
    (hinfo : '\n' ∉ info) (content : List Char) :
    unfenced (lead ++ ((fence ++ (info ++ '\n' :: (content ++ '\n' :: fence))) ++ trail)) =
      Text.trim content := by
  have hsplit : content ++ '\n' :: fence = content ++ ['\n'] ++ fence := by simp
  have hlast := getLast?_append_fence (content ++ ['\n'])
  rw [hsplit, unfenced_opened hlead htrail hinfo hlast (by decide), dropClosing_append]
  exact (Text.blanks_singleton Text.isBlank_lineFeed).trim_append content

/-- Of a block that was cut off, the trimmed content is left when it is not blank and ends with no
fence. -/
theorem unfenced_unclosed (hlead : Text.Blanks lead) (htrail : Text.Blanks trail)
    (hinfo : '\n' ∉ info) (hblank : ¬Text.Blanks content)
    (hfence : ¬fence <:+ Text.trimEnd content) :
    unfenced (lead ++ ((fence ++ (info ++ '\n' :: content)) ++ trail)) = Text.trim content := by
  obtain ⟨blanks, hblanks, heq⟩ := Text.exists_trimEnd content
  have hlines : info ++ '\n' :: content = info ++ '\n' :: Text.trimEnd content ++ blanks := by
    rw [List.append_assoc, List.cons_append, ← heq]
  have hne : Text.trimEnd content ≠ [] := by
    intro hempty
    rw [hempty, List.nil_append] at heq
    exact hblank (heq ▸ hblanks)
  obtain ⟨c, hlast⟩ := Option.ne_none_iff_exists'.mp (mt List.getLast?_eq_none_iff.mp hne)
  have hc := Text.getLast?_trimEnd content c hlast
  have hend : ¬fence <:+ Text.trimEnd (Text.trimEnd content) := by
    rwa [Text.trimEnd_eq_self (Text.getLast?_trimEnd content)]
  -- the blanks at the end of the content are taken off with those behind the reply
  rw [hlines, ← List.append_assoc fence, List.append_assoc _ blanks trail,
    unfenced_opened hlead (hblanks.append htrail) hinfo hlast hc, dropClosing_eq_self hend,
    ← hblanks.trim_append (Text.trimEnd content), ← heq]

/-- Of a content that does not begin with a fence, the trimmed text is read, and a code block around
it changes nothing, whatever stands on the line that opens it. The block may be left open when the
content is not blank and does not end with a fence. -/
theorem readAlike_inBlock {lead info content trail : String} (hlead : Text.Blanks lead.toList)
    (htrail : Text.Blanks trail.toList) (hinfo : '\n' ∉ info.toList)
    (hcontent : ¬fence <+: Text.trim content.toList) :
    unfenced content.toList = Text.trim content.toList ∧
      ReadAlike (inBlock lead info content "\n```" trail) content ∧
      (¬Text.Blanks content.toList → ¬fence <:+ Text.trimEnd content.toList →
        ReadAlike (inBlock lead info content "" trail) content) := by
  have hmark : "```".toList = fence := rfl
  have hclose : "\n```".toList = '\n' :: fence := rfl
  have hfeed : "\n".toList = ['\n'] := rfl
  have hplain := unfenced_eq_trim hcontent
  refine ⟨hplain, ?_, ?_⟩
  · apply readAlike_of_unfenced_eq
    rw [hplain, ← unfenced_closed hlead htrail hinfo content.toList, inBlock]
    simp only [String.toList_append, hmark, hclose, hfeed, List.append_assoc, List.cons_append,
      List.nil_append]
  · intro hblank hfence
    apply readAlike_of_unfenced_eq
    rw [hplain, ← unfenced_unclosed hlead htrail hinfo hblank hfence, inBlock]
    simp only [String.toList_append, hmark, hfeed, List.append_assoc, List.cons_append,
      List.nil_append, String.toList_empty]

/-- A draft with fences inside its texts, in a block between blanks and in one that was cut off. -/
theorem readAlike_inBlock_draft :
    let content := "  \x7b\"mermaid\": \"A-->B\", \"summary\": \"No ``` here\"\x7d\r\n"
    Text.Blanks "\n ".toList ∧ Text.Blanks "\t".toList ∧ '\n' ∉ " json`".toList ∧
      ¬fence <+: Text.trim content.toList ∧ ¬Text.Blanks content.toList ∧
      ¬fence <:+ Text.trimEnd content.toList ∧
      unfenced content.toList = Text.trim content.toList ∧
      ReadAlike (inBlock "\n " " json`" content "\n```" "\t") content ∧
      ReadAlike (inBlock "\n " " json`" content "" "\t") content ∧
      (draftOfReply (inBlock "\n " " json`" content "" "\t")).toOption =
        some ⟨"A-->B", "No ``` here"⟩ := by
  intro content
  have hlead : Text.Blanks "\n ".toList := List.all_eq_true.mp (by decide)
  have htrail : Text.Blanks "\t".toList := List.all_eq_true.mp (by decide)
  have hinfo : '\n' ∉ " json`".toList := by decide
  have hcontent : ¬fence <+: Text.trim content.toList := by decide
  have hblank : ¬Text.Blanks content.toList :=
    fun h => absurd (List.all_eq_true.mpr h) (by decide)
  have hfence : ¬fence <:+ Text.trimEnd content.toList := by decide
  obtain ⟨htext, hclosed, hopen⟩ := readAlike_inBlock hlead htrail hinfo hcontent
  refine ⟨hlead, htrail, hinfo, hcontent, hblank, hfence, htext, hclosed, hopen hblank hfence, ?_⟩
  rw [(hopen hblank hfence).draft]
  decide +kernel

end FlowchartSlides.Assistant
