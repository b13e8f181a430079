import EnumConverter.Proofs.Build.Relined
import EnumConverter.Proofs.Placed.Outline
import EnumConverter.Proofs.Scan.Passage
import EnumConverter.Proofs.Scan.Provenance
import EnumConverter.Proofs.Scan.Visit

namespace EnumConverter

open Source Scan Annotation

namespace Scan

/-- The outline with `doc` as the documentation of its enums. -/
def Outline.documentedBy (outline : Outline) (doc : DocBlock) : Outline :=
  { outline with enums := outline.enums.map fun raw => { raw with doc } }

def Step.documentedBy (step : Step) (doc : DocBlock) : Step :=
  { step with found := step.found.documentedBy doc }

theorem Step.documentedBy_of_found {step : Step} (h : step.found = {}) (doc : DocBlock) :
    step.documentedBy doc = step := by
  rw [documentedBy, h, Outline.documentedBy]
  exact congrArg (Step.mk step.state · step.rest) h.symm

theorem readEnum_documentedBy (scopes : ScopeStack) (doc other : DocBlock) (position : Position)
    (isTypedef : Bool) (rest : List Token) :
    readEnum ⟨scopes, other⟩ position isTypedef rest =
      (readEnum ⟨scopes, doc⟩ position isTypedef rest).documentedBy other := by
  rw [readEnum_eq_enterEnum, readEnum_eq_enterEnum]
  cases enumBody rest with
  | nil => rfl
  | cons brace inside =>
    rw [enterEnum, enterEnum]
    obtain ⟨enumerators, closed, left⟩ := readBody {} inside
    split
    · cases closed <;> rfl
    · rfl

/-- What code means does not depend on the comments before it, but for the documentation of an enum. -/
theorem step_documentedBy (scopes : ScopeStack) (doc other : DocBlock) {token : Token}
    (htoken : token.isComment = false) (rest : List Token) :
    step ⟨scopes, other⟩ token rest = (step ⟨scopes, doc⟩ token rest).documentedBy other := by
  unfold step
  dsimp only
  split
  · rename_i comment hkind
    simp [Token.isComment, Token.comment?, hkind] at htoken
  · split
    · exact (Step.documentedBy_of_found (readNamespace_found ..) other).symm
    split
    · exact (Step.documentedBy_of_found (readType_found ..) other).symm
    split
    · exact readEnum_documentedBy ..
    split
    · split
      · rfl
      · split
        · exact readEnum_documentedBy ..
        · rfl
    · rfl
  · rfl
  · split <;> rfl
  · rfl

section Follows

variable {renumber : Nat → Nat} {lines above : Nat}

/-- In front of further comments, which stand `lines` lines further down in the other text, the block
`other` says what `doc` says, on other lines. Where anything was said, a comment is as far below the one
as below the other. -/
structure DocFollows (renumber : Nat → Nat) (lines : Nat) (doc other : DocBlock) : Prop where
  said : saidLines other.contentLines =
    (saidLines doc.contentLines).map (ContentLine.relined renumber)
  ending : saidLines doc.contentLines ≠ [] →
    doc ≠ [] ∧ other ≠ [] ∧ other.endLine = doc.endLine + lines

theorem DocFollows.nil : DocFollows renumber lines [] [] :=
  ⟨rfl, fun hsaid => absurd rfl hsaid⟩

theorem contentLines_push (doc : DocBlock) (comment : Comment) (line : Nat) :
    (doc.push comment line).contentLines =
      doc.contentLines ++ Source.contentLines comment.text comment.style line := by
  simp [DocBlock.push, DocBlock.contentLines]

theorem endLine_push (doc : DocBlock) (comment : Comment) (line : Nat) :
    (doc.push comment line).endLine = comment.endLine := by
  simp [DocBlock.push, DocBlock.endLine]

theorem push_ne_nil (doc : DocBlock) (comment : Comment) (line : Nat) :
    doc.push comment line ≠ [] := by
  simp [DocBlock.push]

/-- A numbering that moves the lines below a line down. -/
def MovesBelow (renumber : Nat → Nat) (above lines : Nat) : Prop :=
  ∀ line, above < line → renumber line = line + lines

theorem contentLines_down (hrenumber : MovesBelow renumber above lines) (text : String)
    (style : CommentStyle) {line : Nat} (hline : above < line) :
    Source.contentLines text style (line + lines) =
      (Source.contentLines text style line).map (ContentLine.relined renumber) := by
  apply List.ext_getElem?
  intro index
  have hindex : renumber (line + index) = line + lines + index := by
    rw [hrenumber _ (Nat.lt_add_right index hline), Nat.add_right_comm]
  simp [Source.contentLines, ContentLine.relined, hindex, Function.comp_def]

/-- Both blocks go on with a comment. -/
theorem DocFollows.push (hrenumber : MovesBelow renumber above lines) {doc other : DocBlock}
    (hsaid : saidLines other.contentLines =
      (saidLines doc.contentLines).map (ContentLine.relined renumber))
    (comment : Comment) {line : Nat} (hline : above < line) :
    DocFollows renumber lines (doc.push comment line)
      (other.push ((Placement.down lines).comment comment) (line + lines)) := by
  refine ⟨?_, fun _ => ⟨push_ne_nil _ _ _, push_ne_nil _ _ _, ?_⟩⟩
  · have htext : ((Placement.down lines).comment comment).text = comment.text := rfl
    have hstyle : ((Placement.down lines).comment comment).style = comment.style := rfl
    rw [contentLines_push, contentLines_push, saidLines_append, saidLines_append, List.map_append,
      hsaid, htext, hstyle, contentLines_down hrenumber _ _ hline, saidLines_relined]
  · rw [endLine_push, endLine_push]
    rfl

/-- A block after a comment that is not trailing. -/
theorem observe_eq_push {comment : Comment} (htrailing : comment.trailing = false) (doc : DocBlock)
    (line : Nat) : doc.observe comment line =
      (if doc ≠ [] ∧ doc.endLine + 1 < line then [] else doc : DocBlock).push comment line := by
  rw [DocBlock.observe, htrailing, if_neg (by simp)]
  by_cases hgap : doc ≠ [] ∧ doc.endLine + 1 < line
  · rw [if_pos (by simpa using hgap), if_pos hgap]
  · rw [if_neg (by simpa using hgap), if_neg hgap]

theorem DocFollows.observe (hrenumber : MovesBelow renumber above lines) {doc other : DocBlock}
    (h : DocFollows renumber lines doc other) (comment : Comment) {line : Nat} (hline : above < line) :
    DocFollows renumber lines (doc.observe comment line)
      (other.observe ((Placement.down lines).comment comment) (line + lines)) := by
  have hmoved : ((Placement.down lines).comment comment).trailing = comment.trailing := rfl
  cases htrailing : comment.trailing with
  | true =>
    rw [htrailing] at hmoved
    rw [DocBlock.observe, if_pos htrailing, DocBlock.observe, if_pos hmoved]
    exact .nil
  | false =>
    rw [htrailing] at hmoved
    rw [observe_eq_push htrailing, observe_eq_push hmoved]
    refine .push hrenumber ?_ comment hline
    by_cases hsaid : saidLines doc.contentLines = []
    · -- Nothing was said, so it does not matter which of the blocks starts anew.
      have hother : saidLines other.contentLines = [] := by rw [h.said, hsaid, List.map_nil]
      have hnone {block : DocBlock} (hblock : saidLines block.contentLines = []) (gap : Prop)
          [Decidable gap] : saidLines (if gap then [] else block : DocBlock).contentLines = [] := by
        split
        · rfl
        · exact hblock
      rw [hnone hother, hnone hsaid, List.map_nil]
    · obtain ⟨hdoc, hother, hend⟩ := h.ending hsaid
      have hgap : (other ≠ [] ∧ other.endLine + 1 < line + lines) ↔
          (doc ≠ [] ∧ doc.endLine + 1 < line) := by
        rw [hend]
        simp only [hdoc, hother, ne_eq, not_false_eq_true, true_and]
        omega
      by_cases hnew : doc ≠ [] ∧ doc.endLine + 1 < line
      · rw [if_pos hnew, if_pos (hgap.2 hnew)]
        rfl
      · rw [if_neg hnew, if_neg (mt hgap.1 hnew)]
        exact h.said

/-- What is found is the same on other lines. Messages may name those lines. -/
structure Outline.Relined (renumber : Nat → Nat) (outline other : Outline) : Prop where
  enums : List.Forall₂ (RawEnum.Relined renumber) outline.enums other.enums
  diagnostics : other.diagnostics.map Diagnostic.key =
    (outline.diagnostics.map (Diagnostic.relined renumber)).map Diagnostic.key

theorem Outline.Relined.append {first second other another : Outline}
    (hfirst : first.Relined renumber other) (hsecond : second.Relined renumber another) :
    (first ++ second).Relined renumber (other ++ another) :=
  ⟨List.rel_append hfirst.enums hsecond.enums,
    by simp [hfirst.diagnostics, hsecond.diagnostics]⟩

theorem relined_position (hrenumber : MovesBelow renumber above lines) {position : Position}
    (hline : above < position.line) :
    (Placement.down lines).position position = position.relined renumber := by
  rw [Position.relined, hrenumber _ hline]
  rfl

/-- What stands below the comments is found further down. -/
theorem step_relined (hrenumber : MovesBelow renumber above lines) (scopes : ScopeStack)
    {doc other : DocBlock} (hdoc : DocFollows renumber lines doc other) {token : Token}
    {rest : List Token} (htokens : ∀ next ∈ token :: rest, above < next.position.line) :
    (step ⟨scopes, doc⟩ token rest).found.Relined renumber
      (((Placement.down lines).outline (step ⟨scopes, doc⟩ token rest).found).documentedBy other) := by
  constructor
  · change List.Forall₂ _ _ (List.map _ (List.map _ _))
    rw [List.map_map, List.forall₂_map_right_iff, List.forall₂_same]
    intro raw hraw
    have hwords : ∀ word ∈ raw.words, above < word.2.line := by
      intro word hword
      have hused : word ∈ wordsOf (token :: rest) :=
        (step_usesWords ⟨scopes, doc⟩ token rest).subset
          (List.mem_append_left _ (List.mem_flatMap.2 ⟨raw, hraw, hword⟩))
      obtain ⟨other, hother, -, hposition⟩ := mem_wordsOf hused
      exact hposition ▸ htokens other hother
    refine ⟨rfl, rfl, rfl, ?_, ?_, ?_⟩
    · exact relined_position hrenumber (hwords ("enum", raw.position) (by simp [RawEnum.words]))
    · refine List.map_congr_left fun enumerator henumerator => ?_
      have hline := hwords enumerator.word (List.mem_cons_of_mem _ (List.mem_map_of_mem henumerator))
      have htrailing : enumerator.trailing.map (Placement.down lines).trailingComment =
          enumerator.trailing := List.map_id _
      have hposition : (Placement.down lines).position enumerator.position =
          enumerator.position.relined renumber := relined_position hrenumber hline
      rw [Placement.enumerator, hposition, htrailing]
      rfl
    · obtain ⟨hsame, -⟩ := step_found hraw
      rw [hsame]
      exact hdoc.said
  · change List.map _ (List.map _ _) = _
    rw [List.map_map, List.map_map]
    refine List.map_congr_left fun diagnostic hdiagnostic => ?_
    obtain ⟨other, hother, hreport⟩ := step_diagnostics _ _ _ diagnostic hdiagnostic
    have hline := htokens other hother
    rw [← hreport.position_eq] at hline
    exact congrArg (diagnostic.kind, ·) (relined_position hrenumber hline)

/-- Behind comments that say the same, a text that stands further down is scanned to the same. -/
theorem scanFrom_relined (hrenumber : MovesBelow renumber above lines) {final : Position}
    (hfinal : above < final.line) (state : ScanState) {other : DocBlock}
    (hdoc : DocFollows renumber lines state.doc other) {tokens : List Token}
    (htokens : ∀ token ∈ tokens, above < token.position.line) :
    (scanFrom final state tokens).Relined renumber
      (scanFrom ((Placement.down lines).position final)
        ⟨(Placement.down lines).scopes state.scopes, other⟩
        ((Placement.down lines).tokens tokens)) := by
  fun_induction scanFrom final state tokens generalizing other with
  | case1 state hfinish =>
    have hscopes : (Placement.down lines).scopes state.scopes = [] := by
      cases hstate : state.scopes with
      | nil => rfl
      | cons => simp [hstate, ScopeStack.finish] at hfinish
    rw [Placement.tokens_nil, scanFrom, hscopes]
    exact ⟨.nil, rfl⟩
  | case2 state error hfinish =>
    cases hstate : state.scopes with
    | nil => simp [hstate, ScopeStack.finish] at hfinish
    | cons innermost outer =>
      rw [Placement.tokens_nil, scanFrom]
      refine ⟨.nil, ?_⟩
      exact congrArg (fun position => [(DiagnosticKind.unbalancedScope, position)])
        (relined_position hrenumber hfinal)
  | case3 state token rest result =>
    rename_i ih
    have hrest : ∀ next ∈ result.rest, above < next.position.line := fun next hnext =>
      htokens next (List.mem_cons_of_mem _ ((step_suffix state token rest).mem hnext))
    rw [Placement.tokens_cons]
    cases hcomment : token.comment? with
    | some comment =>
      obtain ⟨kind, position⟩ := token
      obtain rfl : kind = .comment comment := by
        cases kind <;> simp_all [Token.comment?]
      have hline : above < position.line := htokens _ (List.mem_cons_self ..)
      rw [Placement.token, Placement.kind, scanFrom_comment]
      exact ih (hdoc.observe hrenumber comment hline) hrest
    | none =>
      have hcode : token.isComment = false := by simp [Token.isComment, hcomment]
      have hmoved : ((Placement.down lines).token token).isComment = false := by simp [hcode]
      rw [scanFrom, step_documentedBy _ ((Placement.down lines).doc state.doc) other hmoved]
      have hstep := (Placement.down lines).step_tokens state token rest
      rw [Placement.state] at hstep
      rw [hstep]
      refine (step_relined hrenumber state.scopes hdoc htokens).append ?_
      have hnone : result.state.doc = [] := doc_step state token rest hcode
      refine ih ?_ hrest
      rw [hnone]
      exact .nil

end Follows

end Scan

end EnumConverter
