import EnumConverter.Path
import Mathlib.Tactic.ByContra

namespace EnumConverter

section Lists

variable {α : Type} {before : α → α → Bool}

/-- Of two different items exactly one comes before the other. -/
structure IsOrder (before : α → α → Bool) : Prop where
  irrefl : ∀ a, before a a = false
  trans : ∀ {a b c}, before a b = true → before b c = true → before a c = true
  total : ∀ {a b}, a ≠ b → before a b = true ∨ before b a = true

theorem IsOrder.asymm (h : IsOrder before) {a b : α} (hab : before a b = true) :
    before b a = false := by
  by_contra hback
  rw [Bool.not_eq_false] at hback
  have hself := h.trans hab hback
  rw [h.irrefl] at hself
  cases hself

variable [DecidableEq α]

/-- Whether a list does not come after another one, when the first difference decides. -/
def listNotAfter (before : α → α → Bool) : List α → List α → Bool
  | [], _ => true
  | _ :: _, [] => false
  | a :: as, b :: bs => if a = b then listNotAfter before as bs else before a b

variable (h : IsOrder before)
include h

theorem listNotAfter_trans {as bs cs : List α} (hab : listNotAfter before as bs = true)
    (hbc : listNotAfter before bs cs = true) : listNotAfter before as cs = true := by
  induction as generalizing bs cs with
  | nil => rfl
  | cons a as ih =>
    cases bs with
    | nil => cases hab
    | cons b bs =>
      cases cs with
      | nil => cases hbc
      | cons c cs =>
        rw [listNotAfter] at hab hbc ⊢
        by_cases hfirst : a = b
        · subst hfirst
          rw [if_pos rfl] at hab
          split
          · rename_i hsame
            rw [if_pos hsame] at hbc
            exact ih hab hbc
          · rename_i hdiffer
            rwa [if_neg hdiffer] at hbc
        · rw [if_neg hfirst] at hab
          by_cases hsecond : b = c
          · subst hsecond
            rwa [if_neg hfirst]
          · rw [if_neg hsecond] at hbc
            have hac := h.trans hab hbc
            rw [if_neg, hac]
            rintro rfl
            rw [h.irrefl] at hac
            cases hac

theorem listNotAfter_total (as bs : List α) :
    (listNotAfter before as bs || listNotAfter before bs as) = true := by
  induction as generalizing bs with
  | nil => rfl
  | cons a as ih =>
    cases bs with
    | nil => rfl
    | cons b bs =>
      rw [listNotAfter, listNotAfter]
      by_cases hab : a = b
      · rw [if_pos hab, if_pos hab.symm]
        exact ih bs
      · rw [if_neg hab, if_neg (Ne.symm hab), Bool.or_eq_true]
        exact h.total hab

theorem listNotAfter_antisymm {as bs : List α} (hab : listNotAfter before as bs = true)
    (hba : listNotAfter before bs as = true) : as = bs := by
  induction as generalizing bs with
  | nil =>
    cases bs with
    | nil => rfl
    | cons b bs => cases hba
  | cons a as ih =>
    cases bs with
    | nil => cases hab
    | cons b bs =>
      rw [listNotAfter] at hab hba
      by_cases hfirst : a = b
      · rw [if_pos hfirst] at hab
        rw [if_pos hfirst.symm] at hba
        rw [hfirst, ih hab hba]
      · rw [if_neg hfirst] at hab
        rw [if_neg (Ne.symm hfirst), h.asymm hab] at hba
        cases hba

end Lists

theorem nodup_eraseDups {α : Type} [BEq α] [LawfulBEq α] (items : List α) : items.eraseDups.Nodup := by
  match items with
  | [] => simp
  | item :: rest =>
    -- What is left to look at has become shorter, though it is no part of the list.
    have hrest := nodup_eraseDups (rest.filter fun other => !other == item)
    rw [List.eraseDups_cons, List.nodup_cons]
    exact ⟨by simp, hrest⟩
termination_by items.length
decreasing_by
  have hle := List.length_filter_le (fun other => !other == item) rest
  simp only [List.length_cons]
  omega

/-- Of two lists that are cut where a test begins to fail, the pieces are the same. -/
theorem append_inj_of_forall {α : Type} (test : α → Bool) {as bs cs ds : List α}
    (h : as ++ bs = cs ++ ds) (has : ∀ a ∈ as, test a = true) (hbs : ∀ b ∈ bs, test b = false)
    (hcs : ∀ c ∈ cs, test c = true) (hds : ∀ d ∈ ds, test d = false) : as = cs ∧ bs = ds := by
  have hfirst := congrArg (List.filter test) h
  rw [List.filter_append, List.filter_append, List.filter_eq_self.2 has, List.filter_eq_self.2 hcs,
    List.filter_eq_nil_iff.2 fun b hb => by simp [hbs b hb],
    List.filter_eq_nil_iff.2 fun d hd => by simp [hds d hd], List.append_nil, List.append_nil] at hfirst
  exact ⟨hfirst, List.append_cancel_left (hfirst ▸ h)⟩

/-- It makes no difference whether a list is sorted before or after some of its items are chosen. -/
theorem filter_mergeSort {α : Type} {le : α → α → Bool}
    (htrans : ∀ a b c, le a b = true → le b c = true → le a c = true)
    (htotal : ∀ a b, (le a b || le b a) = true) (keep : α → Bool) (items : List α) :
    (items.mergeSort le).filter keep = (items.filter keep).mergeSort le := by
  induction items with
  | nil => simp
  | cons item items ih =>
    obtain ⟨before, rest, hsorted, hitems, hbefore⟩ := List.mergeSort_cons htrans htotal item items
    rw [hitems, List.filter_append] at ih
    rw [hsorted, List.filter_append]
    by_cases hkeep : keep item = true
    · obtain ⟨first, second, hkept, hfiltered, hfirst⟩ :=
        List.mergeSort_cons htrans htotal item (items.filter keep)
      rw [List.filter_cons_of_pos hkeep, List.filter_cons_of_pos hkeep, hkept]
      -- Both lists are cut at the place of the item.
      have hrest : ∀ b ∈ rest, le item b = true := by
        have hpairwise := List.pairwise_mergeSort htrans htotal (item :: items)
        rw [hsorted, List.pairwise_append] at hpairwise
        exact (List.pairwise_cons.1 hpairwise.2.1).1
      have hsecond : ∀ b ∈ second, le item b = true := by
        have hpairwise := List.pairwise_mergeSort htrans htotal (item :: items.filter keep)
        rw [hkept, List.pairwise_append] at hpairwise
        exact (List.pairwise_cons.1 hpairwise.2.1).1
      obtain ⟨hleft, hright⟩ := append_inj_of_forall (fun b => !le item b) (ih.trans hfiltered)
        (fun b hb => hbefore b (List.mem_filter.1 hb).1)
        (fun b hb => by simp [hrest b (List.mem_filter.1 hb).1]) hfirst
        (fun b hb => by simp [hsecond b hb])
      rw [hleft, hright]
    · rw [List.filter_cons_of_neg hkeep, List.filter_cons_of_neg hkeep, ih]

/-- Texts are ordered by their code points. -/
theorem isOrder_text : IsOrder fun a b : String => decide (a < b) where
  irrefl a := decide_eq_false (String.lt_irrefl a)
  trans hab hbc := decide_eq_true (String.lt_trans (of_decide_eq_true hab) (of_decide_eq_true hbc))
  total := by
    intro a b hne
    by_contra hnone
    rw [not_or, decide_eq_true_eq, decide_eq_true_eq, String.not_lt, String.not_lt] at hnone
    exact hne (String.le_antisymm hnone.2 hnone.1)

theorem Component.before_iff {a b : Component} : a.before b = true ↔
    a.rank < b.rank ∨ ∃ first second, a = .name first ∧ b = .name second ∧
      decide (first < second) = true := by
  cases a <;> cases b <;> simp [before, rank]

theorem Component.isOrder_before : IsOrder Component.before where
  irrefl a := by
    cases a with
    | name text => exact isOrder_text.irrefl text
    | _ => rfl
  trans := by
    intro a b c hab hbc
    obtain hab | ⟨first, second, rfl, rfl, hab⟩ := before_iff.1 hab
    · obtain hbc | ⟨second, third, rfl, rfl, -⟩ := before_iff.1 hbc
      · exact before_iff.2 (.inl (Nat.lt_trans hab hbc))
      · exact before_iff.2 (.inl hab)
    · obtain hbc | ⟨_, third, hsame, rfl, hbc⟩ := before_iff.1 hbc
      · exact before_iff.2 (.inl hbc)
      · obtain rfl := name.inj hsame
        exact isOrder_text.trans hab hbc
  total := by
    intro a b hne
    obtain hlt | heq | hgt := Nat.lt_trichotomy a.rank b.rank
    · exact .inl (before_iff.2 (.inl hlt))
    · -- Only names are of one rank without being the same.
      cases a <;> cases b <;> simp only [rank] at heq
      case name.name first second =>
        exact isOrder_text.total fun hsame => hne (congrArg name hsame)
      all_goals cases heq <;> exact absurd rfl hne
    · exact .inr (before_iff.2 (.inl hgt))

namespace Path

theorem stepsNotAfter_eq (as bs : List Component) :
    stepsNotAfter as bs = listNotAfter Component.before as bs := by
  induction as generalizing bs with
  | nil => rfl
  | cons a as ih =>
    cases bs with
    | nil => rfl
    | cons b bs => rw [stepsNotAfter, listNotAfter, ih]

theorem notAfter_trans (a b c : Path) (hab : a.notAfter b = true) (hbc : b.notAfter c = true) :
    a.notAfter c = true := by
  rw [notAfter, stepsNotAfter_eq] at *
  exact listNotAfter_trans Component.isOrder_before hab hbc

theorem notAfter_total (a b : Path) : (a.notAfter b || b.notAfter a) = true := by
  rw [notAfter, notAfter, stepsNotAfter_eq, stepsNotAfter_eq]
  exact listNotAfter_total Component.isOrder_before _ _

/-- Sorting by paths can wait until some items are chosen. -/
theorem filter_mergeSort_notAfter {α : Type} (path : α → Path) (keep : α → Bool) (items : List α) :
    (items.mergeSort fun a b => (path a).notAfter (path b)).filter keep =
      (items.filter keep).mergeSort fun a b => (path a).notAfter (path b) :=
  filter_mergeSort (fun a b c => notAfter_trans (path a) (path b) (path c))
    (fun a b => notAfter_total (path a) (path b)) keep items

/-- Paths of which none comes after the other have the same steps. -/
theorem same_of_notAfter {a b : Path} (hab : a.notAfter b = true) (hba : b.notAfter a = true) :
    a.same b = true := by
  rw [notAfter, stepsNotAfter_eq] at hab hba
  exact decide_eq_true (listNotAfter_antisymm Component.isOrder_before hab hba)

end Path

end EnumConverter
