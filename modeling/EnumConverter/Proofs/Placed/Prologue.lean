import EnumConverter.Proofs.Inert.Preamble
import EnumConverter.Proofs.Placed.Build
import EnumConverter.Proofs.Placed.Cursor

namespace EnumConverter

open Source Scan Text

/-- Blank lines and directives, each with the line feed that ends it. A directive may go on over line feeds
that are escaped, and blanks may stand before its number sign. -/
inductive Prologue : List Char → Prop
  | nil : Prologue []
  | blank {line rest : List Char} (hline : ∀ c ∈ line, isBlank c = true) (hrest : Prologue rest) :
    Prologue (line ++ '\n' :: rest)
  | directive {margin text rest : List Char} (hmargin : ∀ c ∈ margin, isBlank c = true)
      (hinside : LineFeedsEscaped ['#'] text) (hend : ¬ EndsEscaped ('#' :: text))
      (hrest : Prologue rest) : Prologue (margin ++ '#' :: (text ++ '\n' :: rest))

namespace Source

/-- A directive is read up to the first line feed that is not escaped. -/
theorem directiveRest_of_lineFeedsEscaped {text : List Char} (hinside : LineFeedsEscaped ['#'] text)
    (hend : ¬ EndsEscaped ('#' :: text)) (rest : List Char) :
    directiveRest (text ++ '\n' :: rest) = ⟨text, '\n' :: rest⟩ := by
  have hwhole := whole_directiveRest (text ++ '\n' :: rest)
  obtain ⟨hescaped, hbehind⟩ :=
    directiveRest_lineFeeds (settled_concat [] (text ++ '\n' :: rest) (by decide) (by decide) :
      Settled ['#'] (text ++ '\n' :: rest))
  generalize directiveRest (text ++ '\n' :: rest) = cut at *
  obtain ⟨taken, left⟩ := cut
  change taken ++ left = text ++ '\n' :: rest at hwhole
  obtain ⟨tail, htext, hleft⟩ | ⟨tail, htaken, hleft⟩ := List.append_eq_append_iff.1 hwhole
  · cases tail with
    | nil => simp_all
    | cons c tail =>
      -- The directive cannot end before a line feed that is escaped.
      obtain hnil | ⟨hhead, hopen⟩ := hbehind
      · simp [hleft] at hnil
      · obtain rfl : c = '\n' := by simpa [hleft] using hhead
        rw [htext] at hinside
        exact absurd hinside.of_split hopen
  · cases tail with
    | nil => simp_all
    | cons c tail =>
      -- Nor can it go on behind one that is not.
      obtain ⟨rfl, -⟩ := List.cons.inj hleft
      change LineFeedsEscaped ['#'] taken at hescaped
      rw [htaken] at hescaped
      exact absurd hescaped.of_split hend

namespace Cursor

/-- The cursor behind blanks and directives. -/
def skipped (here : Cursor) (text : List Char) : Cursor :=
  { here with position := here.position.after text }

variable {here : Cursor}

theorem skipped_append (first second : List Char) :
    here.skipped (first ++ second) = (here.skipped first).skipped second := by
  rw [skipped, Position.after_append]
  rfl

theorem tokens_blanks (hfresh : here.fresh = true) {blanks : List Char}
    (hblanks : ∀ c ∈ blanks, isBlank c = true) (rest : List Char) :
    here.tokens (blanks ++ rest) = (here.skipped blanks).tokens rest := by
  induction blanks generalizing here with
  | nil => rfl
  | cons c blanks ih =>
    have hpast : here.pastBlank c = here.skipped [c] := by
      rw [pastBlank, hfresh, Bool.true_or, ← hfresh]
      rfl
    have hfresh' : (here.skipped [c]).fresh = true := hfresh
    rw [List.cons_append, tokens_blank here (hblanks c (by simp)), hpast,
      ih hfresh' fun d hd => hblanks d (by simp [hd]), ← skipped_append, List.singleton_append]

end Cursor

theorem Position.after_concat_lineFeed (here : Position) (text : List Char) :
    here.after (text ++ ['\n']) = ⟨here.line + (text.count '\n' + 1), 1⟩ := by
  rw [after_append, after_cons, after_nil, advance, if_pos rfl, line_after, Nat.add_assoc]

end Source

namespace Prologue

variable {prologue : List Char}

/-- A prologue is skipped, and behind it a line starts. -/
theorem tokens_append (h : Prologue prologue) {here : Cursor} (hfresh : here.fresh = true)
    (rest : List Char) : here.tokens (prologue ++ rest) = (here.skipped prologue).tokens rest := by
  induction h generalizing here with
  | nil => rfl
  | @blank line below hline _ ih =>
    have hblanks : ∀ c ∈ line ++ ['\n'], isBlank c = true := by
      intro c hc
      obtain hc | hc := List.mem_append.1 hc
      · exact hline c hc
      · rw [List.mem_singleton.1 hc]
        decide
    have hbelow : (here.skipped (line ++ ['\n'])).fresh = true := hfresh
    rw [List.append_cons, List.append_assoc, Cursor.tokens_blanks hfresh hblanks, ih hbelow,
      ← Cursor.skipped_append]
  | @directive margin text below hmargin hinside hend _ ih =>
    have hread := directiveRest_of_lineFeedsEscaped hinside hend (below ++ rest)
    have hfeed : ∀ c ∈ ['\n'], isBlank c = true := List.forall_mem_singleton.2 (by decide)
    have hsign : (here.skipped margin).fresh = true := hfresh
    have hbehind : ((here.skipped margin).skipped ('#' :: text)).fresh = true := hfresh
    have hbelow : (((here.skipped margin).skipped ('#' :: text)).skipped ['\n']).fresh = true := hfresh
    calc here.tokens (margin ++ '#' :: (text ++ '\n' :: below) ++ rest)
      _ = (here.skipped margin).tokens ('#' :: (text ++ '\n' :: (below ++ rest))) := by
        rw [List.append_assoc, Cursor.tokens_blanks hfresh hmargin]
        simp
      _ = ((here.skipped margin).skipped ('#' :: text)).tokens (['\n'] ++ (below ++ rest)) :=
        tokens_directive hsign hread
      _ = (((here.skipped margin).skipped ('#' :: text)).skipped ['\n']).tokens (below ++ rest) :=
        Cursor.tokens_blanks hbehind hfeed _
      _ = (here.skipped (margin ++ '#' :: (text ++ '\n' :: below))).tokens rest := by
        rw [ih hbelow, ← Cursor.skipped_append, ← Cursor.skipped_append, ← Cursor.skipped_append]
        simp

theorem after_lineStart (h : Prologue prologue) (line : Nat) :
    Position.after ⟨line, 1⟩ prologue = ⟨line + prologue.count '\n', 1⟩ := by
  have hfeed (front : List Char) {below : List Char}
      (ih : ∀ line, Position.after ⟨line, 1⟩ below = ⟨line + below.count '\n', 1⟩) (line : Nat) :
      Position.after ⟨line, 1⟩ (front ++ '\n' :: below) =
        ⟨line + (front ++ '\n' :: below).count '\n', 1⟩ := by
    rw [List.append_cons, Position.after_append, Position.after_concat_lineFeed, ih, List.count_append,
      List.count_append, List.count_singleton_self, Nat.add_assoc]
  induction h generalizing line with
  | nil => rfl
  | blank _ _ ih => exact hfeed _ ih line
  | @directive margin text below _ _ _ _ ih =>
    rw [← List.cons_append, ← List.append_assoc]
    exact hfeed _ ih line

end Prologue

/-- Behind a prologue a text has its tokens, as many lines further down as the prologue has. -/
theorem Source.tokenize_prologue {prologue : String} (h : Prologue prologue.toList) (source : String) :
    tokenize (prologue ++ source) =
      (Placement.down (prologue.toList.count '\n')).tokens (tokenize source) := by
  have hline : 1 ≤ ({} : Cursor).position.line := Nat.le_refl 1
  rw [tokenize, tokenize, String.toList_append, h.tokens_append rfl,
    ← Cursor.tokens_down _ hline]
  have hbehind : ({} : Cursor).skipped prologue.toList =
      ({} : Cursor).down (prologue.toList.count '\n') := by
    change Cursor.mk (Position.after ⟨1, 1⟩ prologue.toList) true 0 = _
    rw [h.after_lineStart]
    rfl
  rw [hbehind]

/-- Behind include guards and blank lines a text builds what it builds alone: the same declarations, as
many lines further down as they have, and the same diagnostics, with the line that a message names. -/
theorem build_prologue (settings : BuildSettings) {prologue : String}
    (h : Prologue prologue.toList) (source : String) :
    (build settings (prologue ++ source)).declarations =
        (build settings source).declarations.map
          (Declaration.relined (· + prologue.toList.count '\n')) ∧
      List.Forall₂ (Diagnostic.MovedDown (prologue.toList.count '\n'))
        (build settings source).diagnostics (build settings (prologue ++ source)).diagnostics :=
  build_down (tokenize_prologue h source) settings

/-- An include guard. Its second directive goes on behind the end of the line, and a literal and a comment
seem to start in it. -/
def includeGuard : String :=
  "#ifndef A\n#define B(x) \"/* \x7b \\\r\n  enum ' //\n \t\n  #include <a>\n"

/-- A text that ends inside a namespace. -/
def openNamespace : String :=
  "/// @cpp_codegen\n/// string_serialization\nenum e \x7b a \x7d;\nnamespace n \x7b"

theorem build_prologue_includeGuard :
    Prologue includeGuard.toList ∧
    (build {} (includeGuard ++ openNamespace)).declarations =
        (build {} openNamespace).declarations.map (Declaration.relined (· + 5)) ∧
      List.Forall₂ (Diagnostic.MovedDown 5) (build {} openNamespace).diagnostics
        (build {} (includeGuard ++ openNamespace)).diagnostics := by
  have hguard : Prologue includeGuard.toList := by
    change Prologue ([] ++ '#' :: ("ifndef A".toList ++ '\n' ::
      ([] ++ '#' :: ("define B(x) \"/* \x7b \\\r\n  enum ' //".toList ++ '\n' ::
        (" \t".toList ++ '\n' :: ("  ".toList ++ '#' :: ("include <a>".toList ++ '\n' :: [])))))))
    have hmargin : ∀ c ∈ "  ".toList, isBlank c = true := List.all_eq_true.1 (by decide)
    have hline : ∀ c ∈ " \t".toList, isBlank c = true := List.all_eq_true.1 (by decide)
    apply Prologue.directive (List.forall_mem_nil _) (by decide) (by decide)
    apply Prologue.directive (List.forall_mem_nil _) (by decide) (by decide)
    apply Prologue.blank hline
    exact .directive hmargin (by decide) (by decide) .nil
  have hbuilt := build_prologue {} hguard openNamespace
  have hfeeds : includeGuard.toList.count '\n' = 5 := by decide
  rw [hfeeds] at hbuilt
  exact ⟨hguard, hbuilt⟩

end EnumConverter
