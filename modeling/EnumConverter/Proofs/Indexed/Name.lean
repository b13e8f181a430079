import EnumConverter.Proofs.Indexed.Checked
import EnumConverter.Scan.Name

namespace EnumConverter.Scan

open Source

section Readers

variable (tokens : List Token)

/-- The first token from an index on that is not a comment. -/
def nextCode : Nat → Checked (Option Nat) :=
  loop tokens (fun _ _ => .ok none) (fun _ index token =>
    .ok (if token.isComment then .next () (index + 1) else .done (some index))) ()

/-- One token of a group, with `depth` groups open before it. -/
def balancedRound (opening closing : Char) (depth index : Nat) (token : Token) :
    Checked (Round Nat (Option Nat)) :=
  if token.isPunct opening then .ok (.next (depth + 1) (index + 1))
  else if token.isPunct closing then do
    let depth ← Checked.decrease depth
    .ok (if depth = 0 then .done (some (index + 1)) else .next depth (index + 1))
  else .ok (.next depth (index + 1))

/-- Where the group ends whose opening token stands at an index. -/
def skipBalanced (opening closing : Char) : Nat → Checked (Option Nat) :=
  loop tokens (fun _ _ => .ok none) (balancedRound opening closing) 0

/-- Where the attribute ends that starts with the token at an index, if one does. -/
def attributeEnd (index : Nat) (token : Token) : Checked (Option Nat) := do
  match ← nextCode tokens (index + 1) with
  | none => .ok none
  | some next =>
    let follower ← Checked.item tokens next
    if token.isPunct '[' && follower.isPunct '[' then skipBalanced tokens '[' ']' index
    else if token.ident?.any (· ∈ attributeWords) && follower.isPunct '(' then
      skipBalanced tokens '(' ')' next
    else .ok none

/-- One attribute at most. -/
def attributeRound (_ : Unit) (index : Nat) (token : Token) : Checked (Round Unit Nat) := do
  match ← attributeEnd tokens index token with
  | none => .ok (.done index)
  | some stop => .resume (fun _ => index) () <$> nextCode tokens stop

/-- The token behind all attributes. -/
def skipAttributesAt : Nat → Checked Nat :=
  loop tokens (fun _ _ => .error .outOfRange) (attributeRound tokens) ()

/-- The cursor behind all attributes. -/
def skipAttributesFrom : Option Nat → Checked (Option Nat)
  | none => .ok none
  | some index => some <$> skipAttributesAt tokens index

/-- The cursor behind a list of template arguments, if one starts here. -/
def skipTemplateAt : Option Nat → Checked (Option Nat)
  | none => .ok none
  | some index => do
    let token ← Checked.item tokens index
    if token.isPunct '<' then
      match ← skipBalanced tokens '<' '>' index with
      | none => .ok none
      | some stop => nextCode tokens stop
    else .ok (some index)

/-- Goes on with a name whose parts so far are `names`, if a path separator stands here. -/
def onward (names : List String) :
    Option Nat → Checked (Round (List String) (List String × Option Nat))
  | none => .ok (.done (names, none))
  | some index => do
    let token ← Checked.item tokens index
    if token.kind = .pathSeparator then .resume (·, none) names <$> nextCode tokens (index + 1)
    else .ok (.done (names, some index))

/-- One part of a qualified name. -/
def qualifiedRound (names : List String) (index : Nat) (token : Token) :
    Checked (Round (List String) (List String × Option Nat)) :=
  match token.ident? with
  | none => .ok (.done (names, some index))
  | some name =>
    if name ∈ specifierWords then .ok (.done (names, some index))
    else do
      let behind ← nextCode tokens (index + 1)
      onward tokens (names ++ [name]) (← skipTemplateAt tokens behind)

/-- The parts of a qualified name behind `names`, and the cursor behind it. -/
def qualifiedNameAt : List String → Option Nat → Checked (List String × Option Nat) :=
  cursorLoop tokens (·, none) (qualifiedRound tokens)

/-- One part of the name of a namespace. -/
def namespaceRound (names : List String) (index : Nat) (token : Token) :
    Checked (Round (List String) (List String × Option Nat)) :=
  match token.ident? with
  | none => .ok (.done (names, some index))
  | some name =>
    if name = "inline" then .resume (·, none) names <$> nextCode tokens (index + 1)
    else do onward tokens (names ++ [name]) (← nextCode tokens (index + 1))

/-- The parts of the name of a namespace behind `names`, and the cursor behind it. -/
def namespaceNameAt : List String → Option Nat → Checked (List String × Option Nat) :=
  cursorLoop tokens (·, none) (namespaceRound tokens)

/-- The first opening brace or semicolon outside parentheses. -/
def bodyOrEndAt : Nat → Nat → Checked (Option Nat) :=
  loop tokens (fun _ _ => .ok none) (fun depth index token =>
    .ok (if token.isPunct '(' then .next (depth + 1) (index + 1)
      else if token.isPunct ')' then .next (depth - 1) (index + 1)
      else if depth = 0 && (token.isPunct '\x7b' || token.isPunct ';') then .done (some index)
      else .next depth (index + 1)))

/-- The cursor at the body, if a list of base types or an underlying type starts here. -/
def skipBaseClauseAt : Option Nat → Checked (Option Nat)
  | none => .ok none
  | some index => do
    let token ← Checked.item tokens index
    if token.isPunct ':' then bodyOrEndAt tokens 0 (index + 1) else .ok (some index)

/-- The cursor behind a word, if it stands here. -/
def skipWordAt (word : String) : Option Nat → Checked (Option Nat)
  | none => .ok none
  | some index => do
    let token ← Checked.item tokens index
    if token.isIdent word then nextCode tokens (index + 1) else .ok (some index)

end Readers

variable {tokens rest : List Token}

theorem nextCode_offset (h : rest <:+ tokens) :
    nextCode tokens (offset tokens rest) = .ok (cursor? tokens (skipComments rest)) := by
  induction rest with
  | nil => exact loop_nil
  | cons token rest ih =>
    have hrest := (List.suffix_cons token rest).trans h
    by_cases hcomment : token.isComment
    · have hskip : skipComments (token :: rest) = skipComments rest := by simp [skipComments, hcomment]
      rw [hskip]
      exact (loop_next h List.suffix_rfl (by simp [hcomment, offset_cons h])).trans (ih hrest)
    · have hskip : skipComments (token :: rest) = token :: rest := by simp [skipComments, hcomment]
      rw [hskip]
      exact loop_done h (by simp [hcomment])

/-- Inside a group the count of open groups is one more than that of the groups inside it, so it can
be counted down. -/
theorem balanced_offset (opening closing : Char) (inner : Nat) (h : rest <:+ tokens) :
    loop tokens (fun _ _ => .ok none) (balancedRound opening closing) (inner + 1) (offset tokens rest) =
      .ok ((afterGroup? opening closing inner rest).map (offset tokens)) := by
  fun_induction afterGroup? opening closing inner rest with
  | case1 => exact loop_nil
  | case2 inner token rest hopen ih =>
    refine (loop_next h List.suffix_rfl ?_).trans (ih ((List.suffix_cons ..).trans h))
    simp [balancedRound, hopen, offset_cons h]
  | case3 token rest hopen hclose =>
    refine loop_done h ?_
    simp [balancedRound, hopen, hclose, Checked.decrease, offset_cons h]
  | case4 token rest hopen hclose inner ih =>
    refine (loop_next h List.suffix_rfl ?_).trans (ih ((List.suffix_cons ..).trans h))
    simp [balancedRound, hopen, hclose, Checked.decrease, offset_cons h]
  | case5 inner token rest hopen hclose ih =>
    refine (loop_next h List.suffix_rfl ?_).trans (ih ((List.suffix_cons ..).trans h))
    simp [balancedRound, hopen, hclose, offset_cons h]

/-- In front of a group there is nothing that its closing token could count down. -/
example : balancedRound '(' ')' 0 0 ⟨.punct ')', .start⟩ = .error .belowZero := rfl

theorem skipBalanced_offset {opening : Char} (closing : Char) {token : Token}
    (h : token :: rest <:+ tokens) (hopen : token.isPunct opening = true) :
    skipBalanced tokens opening closing (offset tokens (token :: rest)) =
      .ok ((afterGroup? opening closing 0 rest).map (offset tokens)) := by
  refine (loop_next h List.suffix_rfl ?_).trans
    (balanced_offset opening closing 0 ((List.suffix_cons ..).trans h))
  simp [balancedRound, hopen, offset_cons h]

theorem attributeEnd_offset {token : Token} (h : token :: rest <:+ tokens) :
    attributeEnd tokens (offset tokens (token :: rest)) token =
      .ok ((afterAttribute? token rest).map (offset tokens)) := by
  have hrest := (List.suffix_cons token rest).trans h
  have hskip := (skipComments_suffix rest).trans hrest
  rw [attributeEnd, offset_cons h, nextCode_offset hrest, afterAttribute?]
  cases hnext : skipComments rest with
  | nil => rfl
  | cons next args =>
    rw [hnext] at hskip
    simp only [cursor?_cons, Checked.ok_bind, item_offset hskip]
    split
    · rename_i hbracket
      obtain ⟨hbracket, -⟩ := Bool.and_eq_true_iff.1 hbracket
      exact skipBalanced_offset ']' h hbracket
    split
    · rename_i hparen
      obtain ⟨-, hparen⟩ := Bool.and_eq_true_iff.1 hparen
      exact skipBalanced_offset ')' hskip hparen
    · rfl

theorem skipAttributes_ne_nil (h : rest ≠ []) : skipAttributes rest ≠ [] := by
  fun_induction skipAttributes rest with
  | case1 => contradiction
  | case2 token rest next after hattribute ih => exact ih (by simp)
  | case3 => exact h

theorem skipAttributesAt_offset (h : rest <:+ tokens) (hrest : rest ≠ []) :
    skipAttributesAt tokens (offset tokens rest) = .ok (offset tokens (skipAttributes rest)) := by
  fun_induction skipAttributes rest with
  | case1 => contradiction
  | case2 token rest next after hattribute ih =>
    obtain ⟨tail, hattribute, hskip⟩ := Option.map_eq_some_iff.1 hattribute
    have htail := afterAttribute?_suffix hattribute
    have hnext := hskip ▸ (skipComments_suffix tail).trans htail
    have htokens := (List.suffix_cons token rest).trans h
    refine (loop_next h hnext ?_).trans (ih (hnext.trans htokens) (by simp))
    rw [attributeRound, attributeEnd_offset h, hattribute]
    simp [nextCode_offset (htail.trans htokens), hskip, Round.resume]
  | case3 token rest hattribute =>
    refine loop_done h ?_
    rw [attributeRound, attributeEnd_offset h]
    cases hafter : afterAttribute? token rest with
    | none => rfl
    | some tail =>
      have htail := (afterAttribute?_suffix hafter).trans ((List.suffix_cons token rest).trans h)
      have hskip : skipComments tail = [] := by
        cases hskip : skipComments tail with
        | nil => rfl
        | cons next after => exact absurd (by simp [hafter, hskip]) (hattribute next after)
      simp [nextCode_offset htail, hskip, Round.resume]

theorem skipAttributesFrom_cursor? (h : rest <:+ tokens) :
    skipAttributesFrom tokens (cursor? tokens rest) = .ok (cursor? tokens (skipAttributes rest)) := by
  cases rest with
  | nil => simp [skipAttributesFrom, skipAttributes]
  | cons token rest =>
    rw [cursor?_cons, skipAttributesFrom, skipAttributesAt_offset h (by simp)]
    cases hbehind : skipAttributes (token :: rest) with
    | nil => exact absurd hbehind (skipAttributes_ne_nil (by simp))
    | cons => rfl

theorem skipTemplateAt_cursor? (h : rest <:+ tokens) :
    skipTemplateAt tokens (cursor? tokens rest) =
      .ok (cursor? tokens (skipTemplateArguments rest)) := by
  cases rest with
  | nil => rfl
  | cons token rest =>
    simp only [cursor?_cons, skipTemplateAt, item_offset h, Checked.ok_bind, skipTemplateArguments]
    split
    · rename_i hopen
      rw [skipBalanced_offset '>' h hopen]
      cases hgroup : afterGroup? '<' '>' 0 rest with
      | none => rfl
      | some after =>
        have hafter := (afterGroup?_suffix hgroup).trans ((List.suffix_cons token rest).trans h)
        simp [nextCode_offset hafter]
    · rfl

theorem onward_of_none (names : List String) (h : rest <:+ tokens)
    (hseparator : afterPathSeparator? rest = none) :
    onward tokens names (cursor? tokens rest) = .ok (.done (names, cursor? tokens rest)) := by
  cases rest with
  | nil => rfl
  | cons token rest =>
    have hkind : token.kind ≠ .pathSeparator := by simpa [afterPathSeparator?] using hseparator
    simp [onward, item_offset h, hkind]

theorem onward_of_some (names : List String) {tail : List Token} (h : rest <:+ tokens)
    (hseparator : afterPathSeparator? rest = some tail) :
    onward tokens names (cursor? tokens rest) = .ok (.resume (·, none) names (cursor? tokens tail)) := by
  cases rest with
  | nil => simp [afterPathSeparator?] at hseparator
  | cons token rest =>
    obtain ⟨hkind, rfl⟩ : token.kind = .pathSeparator ∧ skipComments rest = tail := by
      simpa [afterPathSeparator?] using hseparator
    simp [onward, item_offset h, hkind, offset_cons h, nextCode_offset ((List.suffix_cons ..).trans h)]

theorem qualifiedNameAt_cursor? (names : List String) (h : rest <:+ tokens) :
    qualifiedNameAt tokens names (cursor? tokens rest) =
      .ok (names ++ (qualifiedName rest).1, cursor? tokens (qualifiedName rest).2) := by
  fun_induction qualifiedName rest generalizing names with
  | case1 => simp [qualifiedNameAt, cursorLoop]
  | case2 token rest hident => exact cursorLoop_done h (by simp [qualifiedRound, hident])
  | case3 token rest name hident hword =>
    exact cursorLoop_done h (by simp [qualifiedRound, hident, hword])
  | case4 token rest name hident hword hseparator =>
    have hrest := (List.suffix_cons token rest).trans h
    have hskip := (skipComments_suffix rest).trans hrest
    have htemplate := (skipTemplateArguments_suffix _).trans hskip
    refine cursorLoop_done h ?_
    simp [qualifiedRound, hident, hword, offset_cons h, nextCode_offset hrest,
      skipTemplateAt_cursor? hskip, onward_of_none _ htemplate hseparator]
  | case5 token rest name hident hword tail hseparator more left hmore ih =>
    have hrest := (List.suffix_cons token rest).trans h
    have hskip := (skipComments_suffix rest).trans hrest
    have htemplate := (skipTemplateArguments_suffix _).trans hskip
    have htail := (afterPathSeparator?_suffix hseparator).trans
      ((skipTemplateArguments_suffix _).trans (skipComments_suffix rest))
    refine (cursorLoop_resume h htail ?_).trans ((ih (names ++ [name]) (htail.trans hrest)).trans ?_)
    · simp [qualifiedRound, hident, hword, offset_cons h, nextCode_offset hrest,
        skipTemplateAt_cursor? hskip, onward_of_some _ htemplate hseparator]
    · simp [hmore]

theorem namespaceNameAt_cursor? (names : List String) (h : rest <:+ tokens) :
    namespaceNameAt tokens names (cursor? tokens rest) =
      .ok (names ++ (namespaceName rest).1, cursor? tokens (namespaceName rest).2) := by
  fun_induction namespaceName rest generalizing names with
  | case1 => simp [namespaceNameAt, cursorLoop]
  | case2 token rest hident => exact cursorLoop_done h (by simp [namespaceRound, hident])
  | case3 token rest hident ih =>
    have hrest := (List.suffix_cons token rest).trans h
    have hskip := skipComments_suffix rest
    refine (cursorLoop_resume h hskip ?_).trans (ih _ (hskip.trans hrest))
    simp [namespaceRound, hident, offset_cons h, nextCode_offset hrest]
  | case4 token rest name hident hinline hseparator =>
    have hrest := (List.suffix_cons token rest).trans h
    have hskip := (skipComments_suffix rest).trans hrest
    refine cursorLoop_done h ?_
    simp [namespaceRound, hident, hinline, offset_cons h, nextCode_offset hrest,
      onward_of_none _ hskip hseparator]
  | case5 token rest name hident hinline tail hseparator more left hmore ih =>
    have hrest := (List.suffix_cons token rest).trans h
    have hskip := (skipComments_suffix rest).trans hrest
    have htail := (afterPathSeparator?_suffix hseparator).trans (skipComments_suffix rest)
    refine (cursorLoop_resume h htail ?_).trans ((ih (names ++ [name]) (htail.trans hrest)).trans ?_)
    · simp [namespaceRound, hident, hinline, offset_cons h, nextCode_offset hrest,
        onward_of_some _ hskip hseparator]
    · simp [hmore]

theorem bodyOrEndAt_offset (depth : Nat) (h : rest <:+ tokens) :
    bodyOrEndAt tokens depth (offset tokens rest) = .ok (cursor? tokens (bodyOrEnd depth rest)) := by
  fun_induction bodyOrEnd depth rest with
  | case1 => exact loop_nil
  | case2 depth token rest hopen ih =>
    refine (loop_next h List.suffix_rfl ?_).trans (ih ((List.suffix_cons ..).trans h))
    rw [if_pos hopen, offset_cons h]
  | case3 depth token rest hopen hclose ih =>
    refine (loop_next h List.suffix_rfl ?_).trans (ih ((List.suffix_cons ..).trans h))
    rw [if_neg hopen, if_pos hclose, offset_cons h]
  | case4 depth token rest hopen hclose hend =>
    refine loop_done h ?_
    rw [if_neg hopen, if_neg hclose, if_pos hend, cursor?_cons]
  | case5 depth token rest hopen hclose hend ih =>
    refine (loop_next h List.suffix_rfl ?_).trans (ih ((List.suffix_cons ..).trans h))
    rw [if_neg hopen, if_neg hclose, if_neg hend, offset_cons h]

theorem skipBaseClauseAt_cursor? (h : rest <:+ tokens) :
    skipBaseClauseAt tokens (cursor? tokens rest) = .ok (cursor? tokens (skipBaseClause rest)) := by
  cases rest with
  | nil => rfl
  | cons token rest =>
    simp only [cursor?_cons, skipBaseClauseAt, item_offset h, Checked.ok_bind, skipBaseClause]
    split
    · rw [offset_cons h, bodyOrEndAt_offset 0 ((List.suffix_cons ..).trans h)]
    · rfl

theorem skipWordAt_cursor? (word : String) (h : rest <:+ tokens) :
    skipWordAt tokens word (cursor? tokens rest) = .ok (cursor? tokens (skipWord word rest)) := by
  cases rest with
  | nil => rfl
  | cons token rest =>
    simp only [cursor?_cons, skipWordAt, item_offset h, Checked.ok_bind, skipWord]
    split
    · rw [offset_cons h, nextCode_offset ((List.suffix_cons ..).trans h)]
    · rfl

end EnumConverter.Scan
