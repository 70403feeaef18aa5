import Tulpje.Lib.Radix

/-!
# Numbers in texts

A text is read word by word. Some words are labels, and a label takes the numbers since the one before it. What a text
made of parts says is what the parts say, one after another (`Says.append`, `says_intercalate`).
-/

namespace Tulpje.Lib.Words

/-- The runs of letters and digits, some of which are empty. -/
def words (text : List Char) : List (List Char) := text.splitOnP fun c => !c.isAlphanum

def readNumber (word : List Char) : Option ℕ := if word = [] then none else readDigits 10 word

section
variable {K : Type*} (label : List Char → Option K)

/-- Other words are passed over. -/
def readEntries : List ℕ → List (List Char) → List (K × List ℕ)
  | _, [] => []
  | numbers, word :: rest =>
    match label word with
    | some k => (k, numbers) :: readEntries [] rest
    | none => readEntries (numbers ++ (readNumber word).toList) rest

def entries (text : String) : List (K × List ℕ) := readEntries label [] (words text.toList)

/-- The text says this, wherever it stands. -/
def Says (text : List Char) (said : List (K × List ℕ)) : Prop :=
  ∀ rest, readEntries label [] (words text ++ rest) = said ++ readEntries label [] rest

end

variable {K : Type*} {label : List Char → Option K}

theorem words_append {c : Char} (hc : c.isAlphanum = false) (text text' : List Char) :
    words (text ++ c :: text') = words text ++ words text' :=
  List.splitOnP_append_cons text text' (by simp [hc])

theorem words_of_isAlphanum {word : List Char} (h : ∀ c ∈ word, c.isAlphanum = true) : words word = [word] :=
  List.splitOnP_eq_singleton fun c hc => by simp [h c hc]

theorem isAlphanum_of_mem_toDigits (n : ℕ) : ∀ c ∈ Nat.toDigits 10 n, c.isAlphanum = true := by
  intro c hc
  have hdigit : c.isDigit = true := Nat.isDigit_of_mem_toDigits (by decide) (by decide) hc
  rw [Char.isAlphanum, hdigit, Bool.or_true]

/-- A number is a word, whatever follows it. -/
theorem words_toDigits_append {c : Char} (hc : c.isAlphanum = false) (n : ℕ) (text : List Char) :
    words (Nat.toDigits 10 n ++ c :: text) = Nat.toDigits 10 n :: words text := by
  rw [words_append hc, words_of_isAlphanum (isAlphanum_of_mem_toDigits n), List.singleton_append]

theorem readNumber_toDigits (n : ℕ) : readNumber (Nat.toDigits 10 n) = some n := by
  rw [readNumber, if_neg Nat.toDigits_ne_nil, readDigits_toDigits (by decide) (by decide)]

section Entries
variable (hlabel : ∀ word : List Char, (∃ c ∈ word, c.isDigit = true) → label word = none)

include hlabel in
theorem readEntries_toDigits (numbers : List ℕ) (n : ℕ) (rest : List (List Char)) :
    readEntries label numbers (Nat.toDigits 10 n :: rest) = readEntries label (numbers ++ [n]) rest := by
  obtain ⟨c, hc⟩ := List.exists_mem_of_ne_nil _ (Nat.toDigits_ne_nil : Nat.toDigits 10 n ≠ [])
  have hdigit : c.isDigit = true := Nat.isDigit_of_mem_toDigits (by decide) (by decide) hc
  rw [readEntries, hlabel _ ⟨c, hc, hdigit⟩, readNumber_toDigits]
  rfl

theorem readEntries_of_label {word : List Char} {k : K} (h : label word = some k) (numbers : List ℕ)
    (rest : List (List Char)) :
    readEntries label numbers (word :: rest) = (k, numbers) :: readEntries label [] rest := by
  rw [readEntries, h]

theorem readEntries_of_other {word : List Char} (h : label word = none) (h' : readNumber word = none)
    (numbers : List ℕ) (rest : List (List Char)) :
    readEntries label numbers (word :: rest) = readEntries label numbers rest := by
  rw [readEntries, h, h', Option.toList_none, List.append_nil]

theorem Says.append {c : Char} (hc : c.isAlphanum = false) {text text' : List Char} {said said' : List (K × List ℕ)}
    (h : Says label text said) (h' : Says label text' said') :
    Says label (text ++ c :: text') (said ++ said') := by
  intro rest
  rw [words_append hc, List.append_assoc, h, h', List.append_assoc]

/-- A text of other words. -/
theorem says_of_others {text : List Char} (h : ∀ word ∈ words text, label word = none ∧ readNumber word = none) :
    Says label text [] := by
  intro rest
  revert h
  generalize words text = ws
  intro h
  induction ws with
  | nil => rfl
  | cons word ws ih =>
    obtain ⟨⟨hlabel, hnumber⟩, hws⟩ := List.forall_mem_cons.mp h
    exact (readEntries_of_other hlabel hnumber _ _).trans (ih hws)

theorem says_nil (hempty : label [] = none) : Says label [] [] :=
  says_of_others (List.forall_mem_singleton.mpr ⟨hempty, rfl⟩)

theorem Says.entries {text : String} {said : List (K × List ℕ)} (h : Says label text.toList said) :
    entries label text = said := by
  have hall := h []
  rwa [List.append_nil, readEntries, List.append_nil] at hall

/-- A list of parts with commas between them. -/
theorem says_intercalate {α : Type*} (hempty : label [] = none) {items : List α} {part : α → String}
    {said : α → List (K × List ℕ)} (h : ∀ a ∈ items, Says label (part a).toList (said a)) :
    Says label (", ".intercalate (items.map part)).toList (items.flatMap said) := by
  induction items with
  | nil => exact says_nil hempty
  | cons a items ih =>
    obtain ⟨hpart, hitems⟩ := List.forall_mem_cons.mp h
    cases items with
    | nil => simpa using hpart
    | cons b items =>
      rw [List.map_cons, List.map_cons, String.intercalate_cons_cons, String.toList_append, String.toList_append,
        List.append_assoc]
      exact hpart.append rfl ((says_nil hempty).append rfl (ih hitems))

end Entries

end Tulpje.Lib.Words
