import Headline.CommandLine.Run

/-!
# Printed texts

A console that obeys its laws writes all texts that have octets, and plain ones as lines of their
own (`write_texts`), so that a run that hands plain texts to it is seen as it is
(`Run.tells_of_eq`). The wide console is such a console (`lawful_wide`).
-/

namespace Headline

/-! ## Plain texts -/

theorem Report.dropControls_eq_self {s : Text} (h : ∀ c ∈ s, ¬ isControl c) :
    dropControls s = s :=
  List.filter_eq_self.2 fun c hc => by simpa using h c hc

theorem Text.expandTabs_eq_self {s : Text} (h : '\t' ∉ s) (column : Nat) :
    expandTabs column s = s := by
  fun_induction expandTabs column s with
  | case1 => rfl
  | case2 column s ih => exact congrArg ('\n' :: ·) (ih fun hs => h (List.mem_cons_of_mem _ hs))
  | case3 => exact absurd (List.mem_cons_self ..) h
  | case4 column c s _ _ ih => exact congrArg (c :: ·) (ih fun hs => h (List.mem_cons_of_mem _ hs))

namespace CommandLine

/-- A text that a console with so many columns shows as it is. -/
def IsShown (columns : Nat) (s : Text) : Prop := Text.isEncodable s ∧ isPlain columns s

theorem forall_mem_of_isPlain {columns : Nat} {s : Text} (h : isPlain columns s) :
    ∀ c ∈ s, ¬ Report.isControl c ∧ c ≠ '\t' := by
  simp only [isPlain, Bool.and_eq_true, List.all_eq_true] at h
  intro c hc
  simpa using h.1.1 c hc

namespace Console

/-! ## The wide console -/

theorem widened_of_isShown {columns : Nat} {s : Text} (h : IsShown columns s) :
    widened s = some (s ++ ['\n']) := by
  have hplain := forall_mem_of_isPlain h.2
  have hdrop : Report.dropControls s = s :=
    Report.dropControls_eq_self fun c hc => (hplain c hc).1
  have htab : '\t' ∉ s := fun ht => (hplain _ ht).2 rfl
  rw [widened, if_pos h.1, hdrop, Text.expandTabs_eq_self htab]

theorem lawful_wide (columns : Nat) : wide.Lawful columns where
  writes := fun s hs => by
    show (widened s).isSome
    rw [widened, if_pos hs]
    rfl
  keeps := fun s hs hplain => widened_of_isShown ⟨hs, hplain⟩

/-! ## Writing in a row -/

variable {k : Console} {columns : Nat}

theorem write_banner (ps : List Print) :
    k.write (.banner :: ps) = (k.banner ++ (k.write ps).1, (k.write ps).2) := rfl

theorem write_text {s written : Text} (h : k.text s = some written) (ps : List Print) :
    k.write (.text s :: ps) = (written ++ (k.write ps).1, (k.write ps).2) := by
  have hwritten : k.written (.text s) = some written := h
  rw [write, hwritten]

theorem write_text_of_none {s : Text} (h : k.text s = none) (ps : List Print) :
    k.write (.text s :: ps) = ([], false) := by
  have hwritten : k.written (.text s) = none := h
  rw [write, hwritten]

/-- Texts are written if each of them can be. -/
theorem write_texts_snd (texts : List Text) :
    (k.write (texts.map .text)).2 = texts.all fun s => (k.text s).isSome := by
  induction texts with
  | nil => rfl
  | cons s texts ih =>
    rw [List.map_cons, List.all_cons]
    cases h : k.text s with
    | none => rw [write_text_of_none h, Option.isSome_none, Bool.false_and]
    | some written => rw [write_text h, ih, Option.isSome_some, Bool.true_and]

/-- Plain texts are written as lines of their own. -/
theorem write_texts (hk : k.Lawful columns) {texts : List Text}
    (h : ∀ s ∈ texts, IsShown columns s) :
    k.write (texts.map .text) = (texts.flatMap fun s => s ++ ['\n'], true) := by
  induction texts with
  | nil => rfl
  | cons s texts ih =>
    obtain ⟨hs, htexts⟩ := List.forall_mem_cons.1 h
    rw [List.map_cons, write_text (hk.keeps s hs.1 hs.2), ih htexts]
    rfl

end Console

/-! ## Runs -/

/-- A run ends so, unless the console cannot write one of these texts, which it hands to it, and
reports nothing. If they are all shown as they are, that is what can be seen of the run. -/
structure Run.Tells (run : Run) (k : Console) (columns : Nat) (exit : Exit) (texts : List Text) :
    Prop where
  exit_eq : run.exit = exit
  prints_eq : run.prints = texts.map .text
  records_eq : run.records = []
  exitOn_eq : run.exitOn k =
    if texts.all fun s => (k.text s).isSome then exit else .aborted .printing
  shown : (∀ s ∈ texts, IsShown columns s) →
    run.exitOn k = exit ∧ (k.write run.prints).1 = texts.flatMap fun s => s ++ ['\n']

theorem Run.tells_of_eq {k : Console} {columns : Nat} (hk : k.Lawful columns) {run : Run}
    {exit : Exit} {texts : List Text} (h : run = ⟨exit, texts.map .text, []⟩) :
    run.Tells k columns exit texts where
  exit_eq := h ▸ rfl
  prints_eq := h ▸ rfl
  records_eq := h ▸ rfl
  exitOn_eq := by
    subst h
    rw [exitOn, Console.write_texts_snd]
  shown := fun hshown => by
    subst h
    rw [exitOn, Console.write_texts hk hshown]
    exact ⟨rfl, rfl⟩

end CommandLine

end Headline
