import Mathlib.Data.List.Chain
import Mathlib.Data.List.Induction
import EnumConverter.Source.Comment

namespace EnumConverter.Source

/-- A comment and the line on which it starts. -/
structure PlacedComment where
  comment : Comment
  line : Nat
deriving DecidableEq, Repr

namespace PlacedComment

/-- The comment as a part of the documentation. -/
def doc (placed : PlacedComment) : DocComment where
  text := placed.comment.text
  style := placed.comment.style
  line := placed.line
  endLine := placed.comment.endLine

end PlacedComment

/-- The comment that a token is, with its line. -/
def Token.placedComment? (token : Token) : Option PlacedComment :=
  token.comment?.map (⟨·, token.position.line⟩)

/-- The comments among tokens, in order. -/
def placedComments (tokens : List Token) : List PlacedComment :=
  tokens.filterMap Token.placedComment?

/-- Whether comments are one block: none of them is trailing, and each starts at most one line after the
one before it ends. -/
structure OneBlock (comments : List PlacedComment) : Prop where
  leading : ∀ placed ∈ comments, placed.comment.trailing = false
  adjacent : comments.IsChain fun previous next => next.line ≤ previous.comment.endLine + 1

/-- `kept` is the longest block at the end of `comments`. -/
structure LongestBlock (comments kept : List PlacedComment) : Prop where
  suffix : kept <:+ comments
  block : OneBlock kept
  longest : ∀ other, other <:+ comments → OneBlock other → other.length ≤ kept.length

theorem oneBlock_nil : OneBlock [] :=
  ⟨by simp, .nil⟩

theorem oneBlock_singleton {placed : PlacedComment} (h : placed.comment.trailing = false) :
    OneBlock [placed] :=
  ⟨by simpa using h, .singleton placed⟩

theorem oneBlock_concat {comments : List PlacedComment} {placed : PlacedComment} :
    OneBlock (comments ++ [placed]) ↔ OneBlock comments ∧ placed.comment.trailing = false ∧
      ∀ last ∈ comments.getLast?, placed.line ≤ last.comment.endLine + 1 := by
  constructor
  · rintro ⟨hleading, hadjacent⟩
    rw [List.isChain_append] at hadjacent
    refine ⟨⟨fun other hother => hleading other (by simp [hother]), hadjacent.1⟩,
      hleading placed (by simp), ?_⟩
    intro last hlast
    exact hadjacent.2.2 last hlast placed rfl
  · rintro ⟨⟨hleading, hadjacent⟩, hplaced, hend⟩
    refine ⟨?_, ?_⟩
    · intro other hother
      obtain hother | hother := List.mem_append.1 hother
      · exact hleading other hother
      · obtain rfl := List.mem_singleton.1 hother
        exact hplaced
    · rw [List.isChain_append]
      refine ⟨hadjacent, .singleton placed, ?_⟩
      rintro last hlast next hnext
      obtain rfl : placed = next := by simpa using hnext
      exact hend last hlast

/-- A suffix that is not empty ends with the last item. -/
theorem eq_nil_or_concat_of_suffix_concat {α : Type} {items other : List α} {item : α}
    (h : other <:+ items ++ [item]) :
    other = [] ∨ ∃ front, other = front ++ [item] ∧ front <:+ items := by
  obtain rfl | ⟨front, last, rfl⟩ := other.eq_nil_or_concat'
  · exact .inl rfl
  · obtain ⟨before, hbefore⟩ := h
    rw [← List.append_assoc] at hbefore
    obtain ⟨hfront, hlast⟩ := List.append_inj' hbefore rfl
    obtain rfl := List.singleton_inj.1 hlast
    exact .inr ⟨front, rfl, before, hfront⟩

namespace LongestBlock

variable {comments kept : List PlacedComment} {placed : PlacedComment}

theorem nil : LongestBlock [] [] :=
  ⟨List.suffix_rfl, oneBlock_nil, fun other hsuffix _ => by simp [List.suffix_nil.1 hsuffix]⟩

/-- No block ends with a trailing comment. -/
theorem concat_trailing (htrailing : placed.comment.trailing = true) :
    LongestBlock (comments ++ [placed]) [] := by
  refine ⟨List.nil_suffix, oneBlock_nil, ?_⟩
  intro other hsuffix hblock
  obtain rfl | ⟨front, rfl, -⟩ := eq_nil_or_concat_of_suffix_concat hsuffix
  · exact Nat.le_refl _
  · rw [oneBlock_concat] at hblock
    simp [hblock.2.1] at htrailing

/-- After a gap, a block starts anew. -/
theorem concat_gap (h : LongestBlock comments kept) {last : PlacedComment}
    (hlast : kept.getLast? = some last) (hleading : placed.comment.trailing = false)
    (hgap : last.comment.endLine + 1 < placed.line) : LongestBlock (comments ++ [placed]) [placed] := by
  refine ⟨List.suffix_append .., oneBlock_singleton hleading, ?_⟩
  intro other hsuffix hblock
  obtain rfl | ⟨front, rfl, hfront⟩ := eq_nil_or_concat_of_suffix_concat hsuffix
  · simp
  obtain rfl | ⟨front, item, rfl⟩ := front.eq_nil_or_concat'
  · simp
  · -- The block would end, before the gap, with the comment with which the other one ends.
    exfalso
    have hend : item = last := by
      have hitem : comments.getLast? = some item := by
        obtain ⟨before, rfl⟩ := hfront
        simp
      obtain ⟨before, rfl⟩ := h.suffix
      rw [List.getLast?_append, hlast, Option.some_or] at hitem
      exact (Option.some.inj hitem).symm
    rw [oneBlock_concat] at hblock
    have hline := hblock.2.2 item (by simp)
    rw [hend] at hline
    omega

theorem concat_adjacent (h : LongestBlock comments kept) (hleading : placed.comment.trailing = false)
    (hadjacent : ∀ last ∈ kept.getLast?, placed.line ≤ last.comment.endLine + 1) :
    LongestBlock (comments ++ [placed]) (kept ++ [placed]) := by
  refine ⟨?_, oneBlock_concat.2 ⟨h.block, hleading, hadjacent⟩, ?_⟩
  · obtain ⟨before, rfl⟩ := h.suffix
    exact ⟨before, by rw [List.append_assoc]⟩
  · intro other hsuffix hblock
    obtain rfl | ⟨front, rfl, hfront⟩ := eq_nil_or_concat_of_suffix_concat hsuffix
    · simp
    · have hlength := h.longest front hfront (oneBlock_concat.1 hblock).1
      simpa using hlength

end LongestBlock

namespace DocBlock

/-- The block after comments were met one by one. -/
def observeAll (block : DocBlock) (comments : List PlacedComment) : DocBlock :=
  comments.foldl (fun block placed => block.observe placed.comment placed.line) block

theorem observeAll_concat (block : DocBlock) (comments : List PlacedComment) (placed : PlacedComment) :
    block.observeAll (comments ++ [placed]) =
      (block.observeAll comments).observe placed.comment placed.line := by
  rw [observeAll, List.foldl_append]
  rfl

theorem endLine_map_doc {kept : List PlacedComment} {last : PlacedComment}
    (h : kept.getLast? = some last) : endLine (kept.map PlacedComment.doc) = last.comment.endLine := by
  rw [endLine, List.getLast?_map, h]
  rfl

/-- One more comment behind a block that is not empty. -/
theorem observe_map_doc {kept : List PlacedComment} {placed : PlacedComment}
    (hleading : placed.comment.trailing = false)
    (hadjacent : ∀ last ∈ kept.getLast?, placed.line ≤ last.comment.endLine + 1) :
    observe (kept.map PlacedComment.doc) placed.comment placed.line =
      (kept ++ [placed]).map PlacedComment.doc := by
  have hgap : ¬ (!(kept.map PlacedComment.doc).isEmpty &&
      placed.line > endLine (kept.map PlacedComment.doc) + 1) = true := by
    cases hlast : kept.getLast? with
    | none => simp [List.getLast?_eq_none_iff.1 hlast]
    | some last =>
      have hline := hadjacent last (by rw [hlast]; rfl)
      rw [endLine_map_doc hlast]
      simp only [Bool.and_eq_true, decide_eq_true_eq, not_and]
      omega
  rw [observe, if_neg (by simp [hleading]), if_neg hgap, List.map_append]
  rfl

/-- What the collector keeps of a run of comments is the longest block at its end. -/
theorem exists_longestBlock (comments : List PlacedComment) :
    ∃ kept, LongestBlock comments kept ∧ observeAll [] comments = kept.map PlacedComment.doc := by
  induction comments using List.reverseRecOn with
  | nil => exact ⟨[], .nil, rfl⟩
  | append_singleton comments placed ih =>
    obtain ⟨kept, hkept, hblock⟩ := ih
    rw [observeAll_concat, hblock]
    by_cases htrailing : placed.comment.trailing = true
    · refine ⟨[], .concat_trailing htrailing, ?_⟩
      rw [observe, if_pos htrailing]
      rfl
    have hleading : placed.comment.trailing = false := by simpa using htrailing
    by_cases hadjacent : ∀ last ∈ kept.getLast?, placed.line ≤ last.comment.endLine + 1
    · exact ⟨kept ++ [placed], hkept.concat_adjacent hleading hadjacent,
        observe_map_doc hleading hadjacent⟩
    · obtain ⟨last, hlast, hgap⟩ : ∃ last, last ∈ kept.getLast? ∧
          last.comment.endLine + 1 < placed.line := by simpa using hadjacent
      refine ⟨[placed], hkept.concat_gap hlast hleading hgap, ?_⟩
      have hne : kept ≠ [] := by
        rintro rfl
        simp at hlast
      rw [observe, if_neg htrailing, endLine_map_doc hlast, if_pos (by simp [hne, hgap])]
      rfl

/-- Comments that are one block are all kept. -/
theorem observeAll_of_oneBlock {comments : List PlacedComment} (h : OneBlock comments) :
    observeAll [] comments = comments.map PlacedComment.doc := by
  obtain ⟨kept, hkept, hblock⟩ := exists_longestBlock comments
  have hall : kept = comments :=
    hkept.suffix.eq_of_length_le (hkept.longest comments List.suffix_rfl h)
  rw [hblock, hall]

end DocBlock

end EnumConverter.Source
