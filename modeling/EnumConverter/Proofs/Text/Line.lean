import EnumConverter.Text.Line

namespace EnumConverter.Text

/-- A text that starts and ends with a character that is not blank. -/
structure Trimmed (cs : List Char) : Prop where
  ne_nil : cs ≠ []
  head : ∀ c ∈ cs.head?, isBlank c = false
  last : ∀ c ∈ cs.getLast?, isBlank c = false

variable {cs : List Char}

theorem dropWhile_of_head {test : Char → Bool} (h : ∀ c ∈ cs.head?, test c = false) :
    cs.dropWhile test = cs := by
  cases cs with
  | nil => rfl
  | cons c cs => simp [h c rfl]

theorem takeWhile_of_head {test : Char → Bool} (h : ∀ c ∈ cs.head?, test c = false) :
    cs.takeWhile test = [] := by
  cases cs with
  | nil => rfl
  | cons c cs => simp [h c rfl]

/-- A scan stops at the end of what passes its test. -/
theorem takeWhile_append_of_head {test : Char → Bool} {rest : List Char}
    (hinside : ∀ c ∈ cs, test c = true) (hstop : ∀ c ∈ rest.head?, test c = false) :
    (cs ++ rest).takeWhile test = cs := by
  rw [List.takeWhile_append_of_pos hinside, takeWhile_of_head hstop, List.append_nil]

theorem dropWhile_append_of_head {test : Char → Bool} {rest : List Char}
    (hinside : ∀ c ∈ cs, test c = true) (hstop : ∀ c ∈ rest.head?, test c = false) :
    (cs ++ rest).dropWhile test = rest := by
  rw [List.dropWhile_append_of_pos hinside, dropWhile_of_head hstop]

theorem trimEnd_of_last (h : ∀ c ∈ cs.getLast?, isBlank c = false) : trimEnd cs = cs := by
  rw [trimEnd, dropWhile_of_head (by simpa using h), List.reverse_reverse]

theorem head?_dropWhile {test : Char → Bool} {c : Char} (h : c ∈ (cs.dropWhile test).head?) :
    test c = false := by
  have hnot := List.head?_dropWhile_not test cs
  rw [Option.mem_def.1 h] at hnot
  simpa using hnot

theorem length_trimEnd_le (cs : List Char) : (trimEnd cs).length ≤ cs.length := by
  have hlength := (@List.dropWhile_suffix _ cs.reverse isBlank).length_le
  simpa [trimEnd] using hlength

/-- A text that trimming leaves as it is has no blanks at its ends. -/
theorem Trimmed.of_trim_eq (h : trim cs = cs) (hne : cs ≠ []) : Trimmed cs := by
  have hstart : trimStart cs = cs := by
    refine (List.dropWhile_suffix isBlank).eq_of_length_le ?_
    have hlength := length_trimEnd_le (trimStart cs)
    rwa [← trim, h] at hlength
  have hend : cs.reverse.dropWhile isBlank = cs.reverse := by
    rw [trim, hstart] at h
    exact List.reverse_eq_iff.1 h
  refine ⟨hne, ?_, ?_⟩
  · intro c hc
    rw [← hstart] at hc
    exact head?_dropWhile hc
  · intro c hc
    have hlast : c ∈ (cs.reverse.dropWhile isBlank).head? := by
      rw [hend]
      simpa using hc
    exact head?_dropWhile hlast

theorem trim_cons_blank {c : Char} (hc : isBlank c = true) (cs : List Char) :
    trim (c :: cs) = trim cs := by
  simp [trim, trimStart, hc]

theorem Trimmed.trim_eq (h : Trimmed cs) : trim cs = cs := by
  rw [trim, trimStart, dropWhile_of_head h.head, trimEnd_of_last h.last]

theorem Trimmed.cons {c : Char} (hc : isBlank c = false) (hne : cs ≠ [])
    (hlast : ∀ c ∈ cs.getLast?, isBlank c = false) : Trimmed (c :: cs) := by
  refine ⟨by simp, by simpa using hc, ?_⟩
  rwa [List.getLast?_cons_of_ne_nil hne]

/-- Whatever stands in front, the text still ends with a character that is not blank. -/
theorem Trimmed.last_append (h : Trimmed cs) (front : List Char) :
    ∀ c ∈ (front ++ cs).getLast?, isBlank c = false := by
  have hlast := List.getLast?_eq_some_getLast h.ne_nil
  rw [List.getLast?_append, hlast, Option.some_or, ← hlast]
  exact h.last

theorem Trimmed.append {first second : List Char} (hfirst : Trimmed first)
    (hsecond : Trimmed second) (between : List Char) : Trimmed (first ++ between ++ second) := by
  obtain ⟨c, first, rfl⟩ := List.exists_cons_of_ne_nil hfirst.ne_nil
  refine .cons (hfirst.head c rfl) (by simp [hsecond.ne_nil]) ?_
  intro d hd
  exact hsecond.last d (by simpa [List.getLast?_append, hsecond.ne_nil] using hd)

theorem Trimmed.isBlankText_eq (h : Trimmed cs) : isBlankText cs = false := by
  obtain ⟨c, rest, rfl⟩ := List.exists_cons_of_ne_nil h.ne_nil
  simp [isBlankText, h.head c rfl]

theorem dropStart?_append (start cs : List Char) : dropStart? start (start ++ cs) = some cs := by
  induction start with
  | nil => rfl
  | cons c start ih => simp [dropStart?, ih]

theorem dropEnd?_append (cs ending : List Char) : dropEnd? ending (cs ++ ending) = some cs := by
  simp [dropEnd?, dropStart?_append]

theorem append_of_dropStart? {start cs rest : List Char} (h : dropStart? start cs = some rest) :
    start ++ rest = cs := by
  fun_induction dropStart? start cs with
  | case1 cs => simpa using h.symm
  | case2 => simp at h
  | case3 start c cs ih => rw [List.cons_append, ih h]
  | case4 => simp at h

theorem append_of_dropEnd? {ending cs rest : List Char} (h : dropEnd? ending cs = some rest) :
    rest ++ ending = cs := by
  obtain ⟨reversed, hdrop, rfl⟩ := Option.map_eq_some_iff.1 h
  rw [← List.reverse_reverse cs, ← append_of_dropStart? hdrop]
  simp

theorem dropReturn_of_last (h : cs.getLast? ≠ some '\r') : dropReturn cs = cs := by
  unfold dropReturn
  cases hdrop : dropEnd? ['\r'] cs with
  | none => rfl
  | some front =>
    rw [← append_of_dropEnd? hdrop] at h
    simp at h

/-- What stands between a start and an end that are known. -/
def between? (start ending text : String) : Option String :=
  ((dropStart? start.toList text.toList).bind (dropEnd? ending.toList)).map String.ofList

theorem between?_append (start text ending : String) :
    between? start ending (start ++ text ++ ending) = some text := by
  simp [between?, dropStart?_append, dropEnd?_append]

/-- A text with another first character does not have the start. -/
theorem between?_of_head {start ending text : String} (middle rest : String) (hstart : start ≠ "")
    (htext : text ≠ "") (hhead : text.toList.head? ≠ start.toList.head?) :
    between? start ending (text ++ middle ++ rest) = none := by
  obtain ⟨s, start', hs⟩ := List.exists_cons_of_ne_nil (mt String.toList_eq_nil_iff.1 hstart)
  obtain ⟨c, text', hc⟩ := List.exists_cons_of_ne_nil (mt String.toList_eq_nil_iff.1 htext)
  have hne : s ≠ c := by
    rintro rfl
    simp [hs, hc] at hhead
  simp [between?, hs, hc, dropStart?, hne]

/-- A text in a joined text makes it no emptier. -/
theorem joined_ne_empty {separator text : String} {texts : List String} (hmem : text ∈ texts)
    (hne : text ≠ "") : joined separator texts ≠ "" := by
  fun_induction joined separator texts with
  | case1 => simp at hmem
  | case2 first => exact List.mem_singleton.1 hmem ▸ hne
  | case3 first next rest ih =>
    obtain rfl | hrest := List.mem_cons.1 hmem
    · simp [hne]
    · simp [ih hrest]

theorem notMem_joined {c : Char} {separator : String} {texts : List String}
    (hseparator : c ∉ separator.toList) (h : ∀ text ∈ texts, c ∉ text.toList) :
    c ∉ (joined separator texts).toList := by
  fun_induction joined separator texts with
  | case1 => simp
  | case2 text => exact h text (by simp)
  | case3 text next texts ih =>
    have hrest := ih fun other hother => h other (by simp [hother])
    simp [h text (by simp), hseparator, hrest]

theorem splitAt_of_notMem {separator : Char} (h : separator ∉ cs) : splitAt separator cs = [cs] := by
  induction cs with
  | nil => rfl
  | cons c cs ih =>
    rw [List.mem_cons, not_or] at h
    rw [splitAt, if_neg (Ne.symm h.1), ih h.2]

theorem splitAt_append {separator : Char} {piece : List Char} (h : separator ∉ piece)
    (rest : List Char) :
    splitAt separator (piece ++ separator :: rest) = piece :: splitAt separator rest := by
  induction piece with
  | nil => simp [splitAt]
  | cons c piece ih =>
    rw [List.mem_cons, not_or] at h
    rw [List.cons_append, splitAt, if_neg (Ne.symm h.1), ih h.2]

theorem splitAt_ne_nil (separator : Char) (cs : List Char) : splitAt separator cs ≠ [] := by
  fun_cases splitAt separator cs <;> simp_all

/-- Text in front of a separator is cut on its own. -/
theorem splitAt_append_separator (separator : Char) (cs rest : List Char) :
    splitAt separator (cs ++ separator :: rest) = splitAt separator cs ++ splitAt separator rest := by
  induction cs with
  | nil => simp [splitAt]
  | cons c cs ih =>
    obtain ⟨piece, pieces, hpieces⟩ := List.exists_cons_of_ne_nil (splitAt_ne_nil separator cs)
    rw [List.cons_append, splitAt, splitAt, ih, hpieces]
    split <;> rfl

/-- Text without separators in front of a text belongs to its first piece. -/
theorem splitAt_append_of_notMem {separator : Char} (h : separator ∉ cs) {rest piece : List Char}
    {pieces : List (List Char)} (hpieces : splitAt separator rest = piece :: pieces) :
    splitAt separator (cs ++ rest) = (cs ++ piece) :: pieces := by
  induction cs with
  | nil => exact hpieces
  | cons c cs ih =>
    rw [List.mem_cons, not_or] at h
    rw [List.cons_append, splitAt, if_neg (Ne.symm h.1), ih h.2]
    rfl

/-- The pieces of a text have no other characters than the text. -/
theorem mem_of_mem_splitAt {separator : Char} (cs : List Char) :
    ∀ piece ∈ splitAt separator cs, ∀ c ∈ piece, c ∈ cs := by
  induction cs with
  | nil => simp [splitAt]
  | cons d cs ih =>
    rw [splitAt]
    split
    · grind
    · split <;> grind

theorem notMem_of_mem_splitAt {separator : Char} (cs : List Char) :
    ∀ piece ∈ splitAt separator cs, separator ∉ piece := by
  fun_induction splitAt separator cs with
  | case1 => simp
  | case2 cs ih => simpa using ih
  | case3 c cs hc hnone ih => exact absurd hnone (splitAt_ne_nil separator cs)
  | case4 c cs hc piece pieces hpieces ih =>
    rw [hpieces] at ih
    intro other hother
    obtain rfl | hother := List.mem_cons.1 hother
    · rw [List.mem_cons, not_or]
      exact ⟨Ne.symm hc, ih piece (by simp)⟩
    · exact ih other (by simp [hother])

theorem lines_of_splitAt {cs last : List Char} {ended : List (List Char)}
    (h : splitAt '\n' cs = ended ++ [last]) :
    lines cs = ended.map dropReturn ++ if last = [] then [] else [last] := by
  unfold lines
  rw [h]
  dsimp only
  rw [List.dropLast_concat, List.getLast?_concat]
  cases last <;> simp

theorem lines_of_notMem (hfeed : '\n' ∉ cs) (hne : cs ≠ []) : lines cs = [cs] := by
  obtain ⟨c, rest, rfl⟩ := List.exists_cons_of_ne_nil hne
  simp [lines, splitAt_of_notMem hfeed]

/-- A line that a line feed ends is the first line, unless it ends with a carriage return. -/
theorem lines_append {line : List Char} (hfeed : '\n' ∉ line) (hreturn : dropReturn line = line)
    (rest : List Char) : lines (line ++ '\n' :: rest) = line :: lines rest := by
  have hne := splitAt_ne_nil '\n' rest
  unfold lines
  dsimp only
  rw [splitAt_append hfeed, List.dropLast_cons_of_ne_nil hne, List.getLast?_cons_of_ne_nil hne,
    List.map_cons, hreturn]
  split <;> rfl

end EnumConverter.Text
