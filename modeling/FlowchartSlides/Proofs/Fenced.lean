import FlowchartSlides.CommandLine.Exit
import FlowchartSlides.Proofs.Contents

/-!
# A flowchart in Markdown

A flowchart that stands in a block of its own comes out of the block with its
contents, though its line ends are made anew. So a run on the Markdown file makes
what a run on the flowchart alone makes, or fails as that one does. The lines of
the file may end with or without carriage returns, and any text may follow.
-/
namespace FlowchartSlides

namespace Markdown

variable {e : Text.LineEnd} {before : List (List Char)} {l s x after rest : List Char} {fence : Fence}

/-- A Markdown text: lines, a block with `x` in it, and what comes after the marks that
close the block. -/
def wrapped (e : Text.LineEnd) (before : List (List Char)) (x after : List Char) : List Char :=
  e.ended before ++ (Fence.backticks.marks ++ language ++
    (e.chars ++ (x ++ (Fence.backticks.marks ++ after))))

/-- When the first block of a Markdown text is the flowchart `s`: no line before it opens
a block, none of its own lines closes one, and the fence that closes it stands on a
line of its own. The end of the last line of `s` may have been added. -/
structure Fits (e : Text.LineEnd) (before : List (List Char)) (s x after : List Char) : Prop where
  lines : ∀ line ∈ before, '\n' ∉ line
  unopened : ∀ line ∈ before, opening? (Text.trim line) = none
  unclosed : ∀ line ∈ Text.lines s, Fence.backticks.closes (Text.trim line) = false
  enclosed : x = s ∨ x = s ++ e.chars
  ended : ∀ c ∈ x.getLast?, c = '\n'
  behind : after = [] ∨ ∃ rest, after = e.chars ++ rest

/-- A line of prose that opens no block is passed over. -/
theorem blocks_line (hl : '\n' ∉ l) (hopen : opening? (Text.trim l) = none) (rest : List Char) :
    blocks (l ++ (e.chars ++ rest)) = blocks rest := by
  obtain ⟨l', hlines, htrim⟩ := e.exists_lines_eq hl rest
  rw [blocks, hlines, blocksFrom, htrim, hopen]
  rfl

theorem blocks_ended (hlines : ∀ line ∈ before, '\n' ∉ line)
    (hopen : ∀ line ∈ before, opening? (Text.trim line) = none) (rest : List Char) :
    blocks (e.ended before ++ rest) = blocks rest := by
  induction before with
  | nil => rfl
  | cons l before ih =>
    have hrest := ih (fun line h => hlines line (List.mem_cons_of_mem l h))
      (fun line h => hopen line (List.mem_cons_of_mem l h))
    rw [Text.LineEnd.ended, List.flatMap_cons, ← Text.LineEnd.ended, List.append_assoc,
      List.append_assoc, blocks_line (hlines l List.mem_cons_self) (hopen l List.mem_cons_self),
      hrest]

/-- Behind a fence that opens a block, the block begins. -/
theorem blocks_opening (hl : '\n' ∉ l) (hopen : opening? (Text.trim l) = some fence)
    (rest : List Char) :
    blocks (l ++ (e.chars ++ rest)) = blocksFrom (.block fence []) (Text.lines rest) := by
  obtain ⟨l', hlines, htrim⟩ := e.exists_lines_eq hl rest
  rw [blocks, hlines, blocksFrom, htrim, hopen]

/-- Lines that do not close a block are added to it. -/
theorem blocksFrom_inside {ls : List (List Char)}
    (h : ∀ line ∈ ls, fence.closes (Text.trim line) = false) (body more : List (List Char)) :
    blocksFrom (.block fence body) (ls ++ more) =
      blocksFrom (.block fence (ls.reverse ++ body)) more := by
  induction ls generalizing body with
  | nil => rfl
  | cons line ls ih =>
    rw [List.cons_append, blocksFrom, h line List.mem_cons_self, if_neg Bool.false_ne_true,
      ih fun l hl => h l (List.mem_cons_of_mem line hl), List.reverse_cons, List.append_assoc]
    rfl

/-- A block holds the lines up to the one that closes it. -/
theorem blocksFrom_block {body ls : List (List Char)} {close : List Char}
    (hbody : ∀ line ∈ ls, fence.closes (Text.trim line) = false)
    (hclose : fence.closes (Text.trim close) = true) (more : List (List Char)) :
    blocksFrom (.block fence body) (ls ++ close :: more) =
      Text.unlines (body.reverse ++ ls) :: blocksFrom .prose more := by
  rw [blocksFrom_inside hbody, blocksFrom, if_pos hclose, List.reverse_append, List.reverse_reverse]

/-- The marks alone on a line close a block. -/
theorem exists_lines_marks (hafter : after = [] ∨ ∃ rest, after = e.chars ++ rest) :
    ∃ close more, Text.lines (Fence.backticks.marks ++ after) = close :: more ∧
      Fence.backticks.closes (Text.trim close) = true := by
  have hmarks : '\n' ∉ Fence.backticks.marks := by decide
  have hcloses : Fence.backticks.closes (Text.trim Fence.backticks.marks) = true := by decide
  rcases hafter with rfl | ⟨rest, rfl⟩
  · exact ⟨Fence.backticks.marks, [], by decide, hcloses⟩
  · obtain ⟨close, hlines, htrim⟩ := e.exists_lines_eq hmarks rest
    exact ⟨close, Text.lines rest, hlines, htrim.symm ▸ hcloses⟩

theorem Fits.contents_eq (h : Fits e before s x after) : Text.contents x = Text.contents s := by
  rcases h.enclosed with rfl | rfl
  · rfl
  · exact e.blanks_chars.contents_concat s

/-- The first block of a Markdown text has the contents of the flowchart in it. -/
theorem Fits.exists_block (h : Fits e before s x after) :
    ∃ block more, blocks (wrapped e before x after) = block :: more ∧
      Text.contents block = Text.contents s := by
  have hopens : opening? (Text.trim (Fence.backticks.marks ++ language)) = some .backticks := by
    decide
  have hline : '\n' ∉ Fence.backticks.marks ++ language := by decide
  have hbody : ∀ line ∈ Text.lines x, Fence.backticks.closes (Text.trim line) = false := by
    have hnil : Fence.backticks.closes [] = false := rfl
    rw [Text.forall_lines_iff_contents (P := fun t => Fence.backticks.closes t = false) hnil,
      h.contents_eq, ← Text.forall_lines_iff_contents hnil]
    exact h.unclosed
  obtain ⟨close, more, hclose, hcloses⟩ := exists_lines_marks h.behind
  refine ⟨Text.unlines (Text.lines x), blocksFrom .prose more, ?_, ?_⟩
  · rw [wrapped, blocks_ended h.lines h.unopened, blocks_opening hline hopens,
      Text.lines_ended_append h.ended, hclose, blocksFrom_block hbody hcloses]
    rfl
  · rw [Text.contents_unlines_lines, h.contents_eq]

end Markdown

namespace CommandLine

/-- A path with an extension is no dash. -/
theorem Path.isDash_eq_false {path : String} {suffix : List Char}
    (h : extension? path = some suffix) : isDash path = false := by
  by_contra hdash
  rw [Bool.not_eq_false] at hdash
  unfold isDash at hdash
  split at hdash
  next first rest hsegments =>
    rw [Bool.and_eq_true, beq_iff_eq, List.all_eq_true] at hdash
    obtain ⟨rfl, hrest⟩ := hdash
    have hnone : rest.filter (!isStill ·) = [] := by
      rw [List.filter_eq_nil_iff]
      intro segment hsegment
      rw [hrest segment hsegment]
      exact Bool.false_ne_true
    have hnames : (segments path).filter (!isStill ·) = [['-']] := by
      rw [hsegments, List.filter_cons_of_pos (by decide), hnone]
    rw [extension?, hnames] at h
    exact absurd h (by simp [suffix?])
  next => exact Bool.false_ne_true hdash

theorem ok_bind {ε α β : Type} (x : α) (f : α → Except ε β) : (Except.ok x >>= f) = f x := rfl

namespace Host

variable {host host' : Host} {path text : String}

/-- The files besides the input that a run may read are the same. -/
def SameFiles (a : Arguments) (host host' : Host) : Prop :=
  ∀ path, some path ∈ [a.settings, a.icons, a.adjustments] → host.text path = host'.text path

theorem source_of_extension {suffix : List Char} (h : Path.extension? path = some suffix) :
    host.source (some path) = host.fileSource path := by
  rw [source, Path.isDash_eq_false h, if_neg Bool.false_ne_true]

theorem fileSource_markdown (hpath : Path.isMarkdown path = true) (htext : host.text path = .ok text)
    {block : List Char} {more : List (List Char)} (hblocks : Markdown.blocks text.toList = block :: more) :
    host.fileSource path = .ok (String.ofList block) := by
  have hfile : host.file path = .ok text := by
    rw [file, htext]
    rfl
  rw [fileSource, hfile, ok_bind, if_pos hpath, hblocks]
  rfl

theorem fileSource_plain (hpath : Path.isMarkdown path = false) (htext : host.text path = .ok text) :
    host.fileSource path = .ok text := by
  have hfile : host.file path = .ok text := by
    rw [file, htext]
    rfl
  rw [fileSource, hfile, ok_bind, if_neg (by rw [hpath]; exact Bool.false_ne_true)]
  rfl

theorem settings_congr {o : Option String} (h : ∀ path ∈ o, host.text path = host'.text path) :
    host.settings o = host'.settings o := by
  cases o with
  | none => rfl
  | some path => rw [settings, settings, h path rfl]

theorem icons_congr {o : Option String} (h : ∀ path ∈ o, host.text path = host'.text path) :
    host.icons o = host'.icons o := by
  cases o with
  | none => rfl
  | some path => rw [icons, icons, file, file, h path rfl]

theorem adjustments_congr {o : Option String} (h : ∀ path ∈ o, host.text path = host'.text path) :
    host.adjustments o = host'.adjustments o := by
  cases o with
  | none => rfl
  | some path => rw [adjustments, adjustments, file, file, h path rfl]

end Host

/-- A snapshot looks at the flowchart of its source alone. -/
theorem snapshot_congr {s t : String} (h : Flowchart.ofText s = Flowchart.ofText t) :
    snapshot s = snapshot t := by
  funext icons commands settings
  simp only [snapshot, Canvas.ofFlowchart, h]

/-- All of a run, the writing too. -/
def delivered (a : Arguments) (host : Host) (hindrance? : String → Option FileFault) :
    Except Failure Delivery :=
  (render a host).bind fun r => deliver a r hindrance?

theorem render_congr {a : Arguments} {host host' : Host} {i j : Option String} {s t : String}
    (hproduct : a.product = .snapshot) (hsame : Host.SameFiles a host host')
    (hs : host.source i = .ok s) (ht : host'.source j = .ok t)
    (h : Flowchart.ofText s = Flowchart.ofText t) :
    render { a with input := i } host = render { a with input := j } host' := by
  have hsettings : host.settings a.settings = host'.settings a.settings :=
    Host.settings_congr fun path hpath => hsame path (by rw [Option.mem_def.mp hpath]; simp)
  have hicons : host.icons a.icons = host'.icons a.icons :=
    Host.icons_congr fun path hpath => hsame path (by rw [Option.mem_def.mp hpath]; simp)
  have hadjustments : host.adjustments a.adjustments = host'.adjustments a.adjustments :=
    Host.adjustments_congr fun path hpath => hsame path (by rw [Option.mem_def.mp hpath]; simp)
  simp only [render, hsettings, hs, ht, hicons, hadjustments, hproduct, ok_bind, snapshot_congr h]

/-- A snapshot of a Markdown file whose first block is a flowchart goes as the snapshot
of a file with the flowchart alone, whether it succeeds or fails: the same text is
printed or written with the same notices, or the failure is the same, and so is
the end of the program. -/
theorem delivered_wrapped {a : Arguments} {host host' : Host} {path path' : String}
    {e : Text.LineEnd} {before : List (List Char)} {s : String} {x after : List Char}
    (hproduct : a.product = .snapshot)
    (hpath : Path.extension? path = some "md".toList)
    (hpath' : Path.extension? path' = some "mmd".toList)
    (hmarked : host.text path = .ok (String.ofList (Markdown.wrapped e before x after)))
    (hplain : host'.text path' = .ok s)
    (hsame : Host.SameFiles a host host')
    (hfits : Markdown.Fits e before s.toList x after)
    (hindrance? : String → Option FileFault) :
    delivered { a with input := some path } host hindrance? =
        delivered { a with input := some path' } host' hindrance? ∧
      ∀ arguments arguments' : List String,
        Arguments.ofList arguments = .ok { a with input := some path } →
        Arguments.ofList arguments' = .ok { a with input := some path' } →
        Exit.ofArguments arguments host hindrance? =
          Exit.ofArguments arguments' host' hindrance? := by
  obtain ⟨block, more, hblocks, hcontents⟩ := hfits.exists_block
  have hmd : Path.isMarkdown path = true := by
    rw [Path.isMarkdown, hpath]
    decide
  have hmmd : Path.isMarkdown path' = false := by
    rw [Path.isMarkdown, hpath']
    decide
  have hsource : host.source (some path) = .ok (String.ofList block) := by
    rw [Host.source_of_extension hpath, Host.fileSource_markdown hmd hmarked]
    rw [String.toList_ofList, hblocks]
  have hsource' : host'.source (some path') = .ok s := by
    rw [Host.source_of_extension hpath', Host.fileSource_plain hmmd hplain]
  have hread : Flowchart.ofText (String.ofList block) = Flowchart.ofText s := by
    rw [Flowchart.ofText_eq_ofContents, String.toList_ofList, hcontents,
      ← Flowchart.ofText_eq_ofContents]
  have hrender := render_congr hproduct hsame hsource hsource' hread
  have hdelivered : delivered { a with input := some path } host hindrance? =
      delivered { a with input := some path' } host' hindrance? := by
    rw [delivered, hrender]
    rfl
  refine ⟨hdelivered, fun arguments arguments' hargs hargs' => ?_⟩
  simp only [Exit.ofArguments, hargs, hargs']
  exact congrArg (Exit.ofRun { a with input := some path }) hdelivered

/-- A flowchart between notes, with icons, as Markdown with carriage returns. -/
theorem delivered_wrapped_notes :
    let icons := "\x7b\"A\": \"🚀\"\x7d"
    let s := "flowchart LR\nA -- ``` --> B\n"
    let before := ["# Notes".toList, "```rust".toList, "```".toList]
    let after := "\r\nMore.".toList
    let marked := String.ofList (Markdown.wrapped .returnFeed before s.toList after)
    let host : Host := ⟨fun path => if path = "notes.md" then .ok marked else
      if path = "icons.json" then .ok icons else .error .notFound, .ok ""⟩
    let host' : Host := ⟨fun path => if path = "chart.mmd" then .ok s else
      if path = "icons.json" then .ok icons else .error .notFound, .ok ""⟩
    Markdown.Fits .returnFeed before s.toList s.toList after ∧
      Exit.ofArguments ["-i", "notes.md", "--icons", "icons.json", "--emit", "snapshot"] host
          (fun _ => none) =
        Exit.ofArguments ["-i", "chart.mmd", "--icons=icons.json"] host' (fun _ => none) := by
  intro icons s before after marked host host'
  have hfits : Markdown.Fits .returnFeed before s.toList s.toList after :=
    { lines := by decide
      unopened := by decide
      unclosed := by decide
      enclosed := Or.inl rfl
      ended := by simp [s]
      behind := Or.inr ⟨"More.".toList, rfl⟩ }
  have hsame : Host.SameFiles { icons := some "icons.json" } host host' := by
    intro path hpath
    obtain rfl : path = "icons.json" := by simpa using hpath
    rfl
  have hpath : Path.extension? "notes.md" = some "md".toList := by decide
  have hpath' : Path.extension? "chart.mmd" = some "mmd".toList := by decide
  have hmarked : host.text "notes.md" =
      .ok (String.ofList (Markdown.wrapped .returnFeed before s.toList after)) := rfl
  have hplain : host'.text "chart.mmd" = .ok s := rfl
  refine ⟨hfits, ?_⟩
  exact (delivered_wrapped rfl hpath hpath' hmarked hplain hsame hfits _).2 _ _ rfl rfl

end CommandLine

end FlowchartSlides
