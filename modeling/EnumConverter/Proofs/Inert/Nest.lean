import EnumConverter.Emit.Code
import EnumConverter.Proofs.Scan.Passage

namespace EnumConverter.Scan

open Source Text

/-- A text takes the scanner from `before` open braces to `after`, above any others, and nothing is
found in it. -/
def Nests (before after : Nat) (text : List Char) : Prop :=
  ∀ (here : Cursor) (inner outer : ScopeStack) (doc : DocBlock), inner.length = before →
    ∃ (there : Cursor) (inner' : ScopeStack) (doc' : DocBlock), inner'.length = after ∧
      Passes ⟨here, inner ++ outer, doc⟩ text {} ⟨there, inner' ++ outer, doc'⟩

/-- A text in which nothing is found and that leaves the open braces as they are. -/
abbrev Inert (text : List Char) : Prop :=
  Nests 0 0 text

namespace Nests

variable {before between after : Nat} {text first second : List Char}

theorem nil (depth : Nat) : Nests depth depth [] :=
  fun here inner _ doc hinner => ⟨here, inner, doc, hinner, fun _ _ => rfl⟩

theorem append (hfirst : Nests before between first) (hsecond : Nests between after second) :
    Nests before after (first ++ second) := by
  intro here inner outer doc hinner
  obtain ⟨middle, inner', doc', hinner', hpass⟩ := hfirst here inner outer doc hinner
  obtain ⟨there, inner'', doc'', hinner'', hpass'⟩ := hsecond middle inner' outer doc' hinner'
  exact ⟨there, inner'', doc'', hinner'', hpass.then hpass'⟩

theorem followed {first second : String} (hfirst : Nests before between first.toList)
    (hsecond : Nests between after second.toList) : Nests before after (first ++ second).toList := by
  rw [String.toList_append]
  exact hfirst.append hsecond

/-- The same text inside more braces. -/
theorem inside (h : Nests before after text) (depth : Nat) :
    Nests (before + depth) (after + depth) text := by
  intro here inner outer doc hinner
  have hsplit : inner = inner.take before ++ inner.drop before := (List.take_append_drop ..).symm
  obtain ⟨there, inner', doc', hinner', hpass⟩ :=
    h here (inner.take before) (inner.drop before ++ outer) doc (by simp; omega)
  refine ⟨there, inner' ++ inner.drop before, doc', by simp; omega, ?_⟩
  rw [List.append_assoc, hsplit, List.append_assoc, ← hsplit]
  exact hpass

/-- A text that changes nothing but what was documented. -/
theorem of_scanFrom (depth : Nat)
    (h : ∀ (here : Cursor) (scopes : ScopeStack) (doc : DocBlock), ∃ (there : Cursor)
      (doc' : DocBlock), ∀ final rest, scanFrom final ⟨scopes, doc⟩ (here.tokens (text ++ rest)) =
        scanFrom final ⟨scopes, doc'⟩ (there.tokens rest)) :
    Nests depth depth text := by
  intro here inner outer doc hinner
  obtain ⟨there, doc', hscan⟩ := h here (inner ++ outer) doc
  exact ⟨there, inner, doc', hinner, hscan⟩

end Nests

variable {depth : Nat}

theorem nests_blank (depth : Nat) {c : Char} (hblank : isBlank c = true) : Nests depth depth [c] :=
  fun here inner outer doc hinner =>
    ⟨here.pastBlank c, inner, doc, hinner, passes_blank here ⟨inner ++ outer, doc⟩ hblank⟩

theorem nests_blanks (depth : Nat) {text : List Char} (h : ∀ c ∈ text, isBlank c = true) :
    Nests depth depth text := by
  induction text with
  | nil => exact .nil depth
  | cons c text ih =>
    exact (nests_blank depth (h c (by simp))).append (ih fun d hd => h d (by simp [hd]))

theorem nests_openBrace (depth : Nat) : Nests depth (depth + 1) ['\x7b'] := by
  intro here inner outer doc hinner
  exact ⟨_, ⟨[], here.position.line⟩ :: inner, [], by simpa using hinner,
    passes_openBrace here (inner ++ outer) doc⟩

theorem nests_closeBrace (depth : Nat) : Nests (depth + 1) depth ['\x7d'] := by
  intro here inner outer doc hinner
  obtain ⟨scope, inner, rfl⟩ := List.exists_cons_of_length_eq_add_one hinner
  exact ⟨_, inner, [], by simpa using hinner, passes_closeBrace here scope (inner ++ outer) doc⟩

theorem nests_mark (depth : Nat) {c : Char} (hmark : c ∈ Lexeme.marks)
    (hidle : isIdle (.punct c) = true) : Nests depth depth [c] :=
  fun here inner outer doc hinner =>
    ⟨_, inner, [], hinner, passes_mark here ⟨inner ++ outer, doc⟩ hmark hidle⟩

theorem nests_pathSeparator (depth : Nat) : Nests depth depth [':', ':'] := by
  refine .of_scanFrom depth fun here scopes doc => ⟨here.pastCode [':', ':'], [], ?_⟩
  intro final rest
  change scanFrom final ⟨scopes, doc⟩ (here.tokens (':' :: ':' :: rest)) = _
  rw [Cursor.tokens_pathSeparator, scanFrom_idle rfl]

theorem nests_lineComment (depth : Nat) {text : List Char} (htext : '\n' ∉ text) :
    Nests depth depth ('/' :: '/' :: text ++ ['\n']) :=
  fun here inner outer doc hinner =>
    ⟨_, inner, _, hinner, passes_lineComment here ⟨inner ++ outer, doc⟩ htext⟩

/-- A character that stands for itself in a literal. -/
theorem quotedRest_cons {c : Char} (hfeed : c ≠ '\n') (hbackslash : c ≠ '\\') (hquote : c ≠ '"')
    (cs : List Char) : quotedRest '"' (c :: cs) = (quotedRest '"' cs).extend [c] := by
  simp [quotedRest, hbackslash, hquote]

theorem quotedRest_escape (c : Char) (cs : List Char) :
    quotedRest '"' ('\\' :: c :: cs) = (quotedRest '"' cs).extend ['\\', c] := by
  simp [quotedRest]

theorem hexDigit_plain {n : Nat} (h : n < 16) :
    Emit.hexDigit n ≠ '\n' ∧ Emit.hexDigit n ≠ '\\' ∧ Emit.hexDigit n ≠ '"' := by
  have hall : ∀ n < 16,
      Emit.hexDigit n ≠ '\n' ∧ Emit.hexDigit n ≠ '\\' ∧ Emit.hexDigit n ≠ '"' := by decide
  exact hall n h

/-- No character that is written into a literal ends it. -/
theorem quotedRest_escapeChar (c : Char) (cs : List Char) :
    quotedRest '"' (Emit.escapeChar c ++ cs) = (quotedRest '"' cs).extend (Emit.escapeChar c) := by
  fun_cases Emit.escapeChar c with
  | case8 hquote hbackslash _ _ _ _ _ hcontrol =>
    obtain ⟨hfeed, hslash, hend⟩ := hexDigit_plain (by omega : c.toNat / 16 < 16)
    obtain ⟨hfeed', hslash', hend'⟩ := hexDigit_plain (by omega : c.toNat % 16 < 16)
    change quotedRest '"' ('\\' :: 'u' :: '0' :: '0' :: _ :: _ :: cs) = _
    rw [quotedRest_escape, quotedRest_cons (by decide) (by decide) (by decide),
      quotedRest_cons (by decide) (by decide) (by decide), quotedRest_cons hfeed hslash hend,
      quotedRest_cons hfeed' hslash' hend']
    rfl
  | case9 hquote hbackslash _ _ hfeed => exact quotedRest_cons hfeed hbackslash hquote cs
  | _ => exact quotedRest_escape _ cs

theorem quotedRest_value (value rest : List Char) :
    quotedRest '"' (value.flatMap Emit.escapeChar ++ '"' :: rest) =
      ⟨value.flatMap Emit.escapeChar ++ ['"'], rest⟩ := by
  induction value with
  | nil => simp [quotedRest]
  | cons c value ih =>
    rw [List.flatMap_cons, List.append_assoc, quotedRest_escapeChar, ih]
    simp [Cut.extend]

/-- A literal is one token, whatever value it stands for. -/
theorem nests_quote (depth : Nat) (value : String) : Nests depth depth (Emit.quote value).toList := by
  refine .of_scanFrom depth fun here scopes doc =>
    ⟨here.pastCode ('"' :: (value.toList.flatMap Emit.escapeChar ++ ['"'])), [], ?_⟩
  intro final rest
  have htext : (Emit.quote value).toList ++ rest =
      '"' :: (value.toList.flatMap Emit.escapeChar ++ ['"'] ++ rest) := by
    simp [Emit.quote, Emit.quoteChars]
  rw [htext, here.tokens_string (by simpa using quotedRest_value value.toList rest),
    scanFrom_idle rfl]

end EnumConverter.Scan
