import EnumConverter.Proofs.LineEnd.Lexeme
import EnumConverter.Proofs.Placed.Outline
import EnumConverter.Proofs.Text.Line

namespace EnumConverter.Text

/-- A text with a carriage return before every line feed. -/
def returned (text : String) : String :=
  String.ofList (withReturns text.toList)

@[simp] theorem toList_returned (text : String) :
    (returned text).toList = withReturns text.toList := by
  simp [returned]

theorem isBlank_return : isBlank '\r' = true := by decide

theorem trimEnd_append_return (cs : List Char) : trimEnd (cs ++ ['\r']) = trimEnd cs := by
  simp [trimEnd, isBlank_return]

theorem trim_append_return (cs : List Char) : trim (cs ++ ['\r']) = trim cs := by
  unfold trim trimStart
  rw [List.dropWhile_append]
  split
  · rename_i hempty
    rw [List.isEmpty_iff.1 hempty]
    simp [isBlank_return]
  · exact trimEnd_append_return _

theorem trim_dropReturn (line : List Char) : trim (dropReturn line) = trim line := by
  unfold dropReturn
  cases hdrop : dropEnd? ['\r'] line with
  | none => rfl
  | some start =>
    rw [← append_of_dropEnd? hdrop, trim_append_return]
    rfl

theorem trimStart_withReturns (cs : List Char) :
    trimStart (withReturns cs) = withReturns (trimStart cs) := by
  unfold trimStart
  induction cs with
  | nil => rfl
  | cons c cs ih =>
    by_cases hc : c = '\n'
    · subst hc
      have hfeed : isBlank '\n' = true := by decide
      simp [isBlank_return, hfeed, ih]
    · rw [withReturns_cons hc, List.dropWhile_cons, List.dropWhile_cons, ih]
      split
      · rfl
      · rw [withReturns_cons hc]

/-- A text with returns that starts with a character that ends no line. -/
theorem eq_cons_of_withReturns {cs rest : List Char} {d : Char} (hfeed : d ≠ '\n')
    (hreturn : d ≠ '\r') (h : withReturns cs = d :: rest) :
    ∃ tail, cs = d :: tail ∧ rest = withReturns tail := by
  have hhead := (head?_withReturns hfeed hreturn cs).1 (by rw [h]; rfl)
  obtain ⟨tail, rfl⟩ := List.head?_eq_some_iff.1 hhead
  rw [withReturns_cons hfeed] at h
  exact ⟨tail, rfl, (List.cons.inj h).2.symm⟩

theorem mem_withReturns {cs : List Char} {c : Char} (h : c ∈ cs) : c ∈ withReturns cs := by
  refine List.mem_flatMap.2 ⟨c, h, ?_⟩
  split <;> simp_all

/-- An end without line feeds is one of the text itself. -/
theorem suffix_of_withReturns {ending : List Char} (hfeed : '\n' ∉ ending) {cs : List Char}
    (h : ending <:+ withReturns cs) : ending <:+ cs := by
  induction cs with
  | nil => exact h
  | cons c cs ih =>
    by_cases hc : c = '\n'
    · subst hc
      rw [withReturns_lineFeed, List.suffix_cons_iff, List.suffix_cons_iff] at h
      obtain rfl | rfl | h := h
      · simp at hfeed
      · simp at hfeed
      · exact (ih h).trans (List.suffix_cons ..)
    · rw [withReturns_cons hc, List.suffix_cons_iff] at h
      obtain rfl | h := h
      · rw [List.mem_cons, not_or] at hfeed
        have hself := withReturns_eq_self fun hmem => hfeed.2 (mem_withReturns hmem)
        simpa only [hself] using List.suffix_refl (c :: cs)
      · exact (ih h).trans (List.suffix_cons ..)

theorem dropEnd?_withReturns {ending : List Char} (hfeed : '\n' ∉ ending) (cs : List Char) :
    dropEnd? ending (withReturns cs) = (dropEnd? ending cs).map withReturns := by
  have happend (start : List Char) :
      dropEnd? ending (withReturns (start ++ ending)) = some (withReturns start) := by
    rw [withReturns_append, withReturns_eq_self hfeed, dropEnd?_append]
  cases hdrop : dropEnd? ending cs with
  | some start =>
    rw [← append_of_dropEnd? hdrop, happend]
    rfl
  | none =>
    cases hreturned : dropEnd? ending (withReturns cs) with
    | none => rfl
    | some start =>
      obtain ⟨front, rfl⟩ := suffix_of_withReturns hfeed ⟨start, append_of_dropEnd? hreturned⟩
      simp [dropEnd?_append] at hdrop

/-- The pieces between line feeds, each but the last with a return behind it. -/
theorem splitAt_withReturns (cs : List Char) :
    ∃ ended last, splitAt '\n' cs = ended ++ [last] ∧
      splitAt '\n' (withReturns cs) = ended.map (· ++ ['\r']) ++ [last] := by
  induction cs with
  | nil => exact ⟨[], [], rfl, rfl⟩
  | cons c cs ih =>
    obtain ⟨ended, last, hpieces, hreturned⟩ := ih
    by_cases hc : c = '\n'
    · subst hc
      refine ⟨[] :: ended, last, by simp [splitAt, hpieces], ?_⟩
      simp [splitAt, hreturned]
    · rw [withReturns_cons hc, splitAt, splitAt, if_neg hc, if_neg hc, hpieces, hreturned]
      cases ended with
      | nil => exact ⟨[], c :: last, rfl, rfl⟩
      | cons piece ended => exact ⟨(c :: piece) :: ended, last, rfl, rfl⟩

/-- The lines of a text are the same with returns, up to blanks around them. -/
theorem map_trim_lines_withReturns (cs : List Char) :
    (lines (withReturns cs)).map trim = (lines cs).map trim := by
  obtain ⟨ended, last, hpieces, hreturned⟩ := splitAt_withReturns cs
  rw [lines_of_splitAt hpieces, lines_of_splitAt hreturned]
  simp [trim_dropReturn, trim_append_return]

end EnumConverter.Text

namespace EnumConverter.Source

open Text

theorem dropFlavour_withReturns {flavours : List Char} (hfeed : '\n' ∉ flavours)
    (hreturn : '\r' ∉ flavours) (cs : List Char) :
    dropFlavour flavours (withReturns cs) = withReturns (dropFlavour flavours cs) := by
  cases cs with
  | nil => rfl
  | cons c cs =>
    by_cases hc : c = '\n'
    · subst hc
      simp [dropFlavour, hfeed, hreturn]
    · rw [withReturns_cons hc, dropFlavour, dropFlavour]
      split
      · rfl
      · rw [withReturns_cons hc]

theorem commentBody_withReturns (cs : List Char) :
    commentBody (withReturns cs) = withReturns (commentBody cs) := by
  unfold commentBody
  split
  · rename_i rest hcs
    obtain ⟨tail, rfl, hrest⟩ := eq_cons_of_withReturns (by decide) (by decide) hcs
    obtain ⟨tail, rfl, rfl⟩ := eq_cons_of_withReturns (by decide) (by decide) hrest.symm
    exact dropFlavour_withReturns (by decide) (by decide) tail
  · rename_i rest hcs
    obtain ⟨tail, rfl, hrest⟩ := eq_cons_of_withReturns (by decide) (by decide) hcs
    obtain ⟨tail, rfl, rfl⟩ := eq_cons_of_withReturns (by decide) (by decide) hrest.symm
    change _ = withReturns (dropFlavour ['*', '!'] ((dropEnd? ['*', '/'] tail).getD tail))
    rw [dropEnd?_withReturns (by decide)]
    have hflavour (body : List Char) : dropFlavour ['*', '!'] (withReturns body) =
        withReturns (dropFlavour ['*', '!'] body) := dropFlavour_withReturns (by decide) (by decide) body
    cases dropEnd? ['*', '/'] tail with
    | none => exact hflavour tail
    | some body => exact hflavour body
  · rename_i hline hblock
    split
    · exact absurd rfl (hline _)
    · exact absurd rfl (hblock _)
    · rfl

/-- The lines of a comment say the same with returns. -/
theorem map_contentOfLine_withReturns (style : CommentStyle) (cs : List Char) :
    (lines (withReturns cs)).map (contentOfLine style) = (lines cs).map (contentOfLine style) := by
  have htrim := map_trim_lines_withReturns cs
  cases style with
  | line => exact htrim
  | block =>
    have hstars := congrArg (List.map fun line => trim (line.dropWhile (· = '*'))) htrim
    rwa [List.map_map, List.map_map] at hstars

theorem contentLines_returned (text : String) (style : CommentStyle) (firstLine : Nat) :
    contentLines (returned text) style firstLine = contentLines text style firstLine := by
  have hcontent (cs : List Char) :
      (lines cs).mapIdx (fun index line =>
        (⟨firstLine + index, String.ofList (contentOfLine style line)⟩ : ContentLine)) =
      ((lines cs).map (contentOfLine style)).mapIdx fun index line =>
        ⟨firstLine + index, String.ofList line⟩ := by
    refine List.ext_getElem? fun index => ?_
    simp [List.getElem?_mapIdx, Function.comp_def]
  unfold contentLines
  rw [hcontent, hcontent, toList_returned, commentBody_withReturns, map_contentOfLine_withReturns]

theorem overrideText_returned (text : String) (style : CommentStyle) :
    overrideText (returned text) style = overrideText text style := by
  unfold overrideText
  rw [toList_returned, commentBody_withReturns, map_contentOfLine_withReturns]

theorem isContinuation_returned (text : String) :
    isContinuation (returned text) = isContinuation text := by
  unfold isContinuation
  rw [toList_returned, commentBody_withReturns, trimStart_withReturns]
  exact decide_eq_decide.2 (head?_withReturns (by decide) (by decide) _)

end EnumConverter.Source
