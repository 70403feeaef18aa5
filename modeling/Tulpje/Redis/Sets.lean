import Tulpje.Redis.Represents

/-!
# Set repositories as sets

A `SetRepository` stands for one set, a `MappedSetRepository` for one set under each key. Its updates change the
set (`Update.on`), and its other calls report about it (`Question.answer`). The reports of the repositories are
those of the sets but for `is_empty`, which returns whether Redis has the key (`set_repositories_refine_iff`).
-/

namespace Tulpje.Redis

open Lib

namespace SetRepository

variable {T : Type} [DecidableEq T]

/-! ### Sets -/

def Update.on : Update T → Finset T → Finset T
  | .insert value, set => Insert.insert value set
  | .remove value, set => set.erase value
  | .removeMulti values, set => set \ values.toFinset
  | .clear, _ => ∅

/-- The set after these updates of the empty one. -/
def Update.all (updates : List (Update T)) : Finset T := updates.foldl (fun set update => update.on set) ∅

omit [DecidableEq T] in
/-- The update takes the value out. -/
def Update.Removes (value : T) : Update T → Prop
  | .insert _ => False
  | .remove value' => value' = value
  | .removeMulti values => value ∈ values
  | .clear => True

theorem Update.mem_on {update : Update T} {set : Finset T} {value : T} :
    value ∈ update.on set ↔ update = .insert value ∨ value ∈ set ∧ ¬ update.Removes value := by
  cases update with
  | insert value' =>
    rw [on, Finset.mem_insert, Update.insert.injEq, eq_comm, Removes, not_false_eq_true, and_true]
  | remove value' => simp [on, Removes, and_comm, eq_comm]
  | removeMulti values => simp [on, Removes]
  | clear => simp [on, Removes]

/-- The set holds what has been inserted and not been removed since. -/
theorem Update.mem_all {updates : List (Update T)} {value : T} : value ∈ Update.all updates ↔
    ∃ before since, updates = before ++ .insert value :: since ∧
      ∀ update ∈ since, ¬ update.Removes value := by
  induction updates using List.reverseRecOn with
  | nil => simp [Update.all]
  | append_singleton updates update ih =>
    have hlast : all (updates ++ [update]) = update.on (all updates) := by simp [all]
    rw [hlast, mem_on, ih]
    constructor
    · rintro (rfl | ⟨⟨before, since, rfl, hsince⟩, hremoves⟩)
      · exact ⟨updates, [], rfl, by simp⟩
      · refine ⟨before, since ++ [update], by simp, fun u hu => ?_⟩
        rcases List.mem_append.mp hu with hu | hu
        · exact hsince u hu
        · rwa [List.mem_singleton.mp hu]
    · rintro ⟨before, since, heq, hsince⟩
      rcases List.eq_nil_or_concat since with rfl | ⟨since, last, rfl⟩
      · obtain ⟨-, hlast⟩ := List.append_inj' heq rfl
        exact .inl (List.singleton_inj.mp hlast)
      · rw [List.concat_eq_append, ← List.cons_append, ← List.append_assoc] at heq
        obtain ⟨rfl, hupdate⟩ := List.append_inj' heq rfl
        rw [List.singleton_inj.mp hupdate]
        refine .inr ⟨⟨before, since, rfl, fun u hu => ?_⟩, ?_⟩
        · exact hsince u (by simp [hu])
        · exact hsince last (by simp)

omit [DecidableEq T] in
/-- The calls that report something about the set. -/
inductive Question (T : Type)
  | members
  | contains (value : T)
  | isEmpty
  | insert (value : T)
  | remove (value : T)

@[reducible] def Question.Answer : Question T → Type
  | .members => Finset T
  | .contains _ | .isEmpty | .insert _ | .remove _ => Bool

/-- What the set has to report; the last two say whether they change it. -/
def Question.answer (set : Finset T) : (question : Question T) → question.Answer
  | .members => set
  | .contains value => decide (value ∈ set)
  | .isEmpty => decide (set = ∅)
  | .insert value => decide (Insert.insert value set ≠ set)
  | .remove value => decide (set.erase value ≠ set)

/-! ### The repository -/

variable (self : SetRepository T)

def question : (question : Question T) → RedisM question.Answer
  | .members => self.members
  | .contains value => self.contains value
  | .isEmpty => self.isEmpty
  | .insert value => self.insert value
  | .remove value => self.remove value

/-- Redis holds the texts of the elements under the name of the repository. -/
def Holds (set : Finset T) (s : Store) : Prop := s self.name = ofSet (set.image self.json.toText)

variable {self} {set : Finset T} {s : Store}

omit [DecidableEq T] in
theorem holds_empty (h : s self.name = none) : self.Holds ∅ s := by
  rw [Holds, h, Finset.image_empty]
  rfl

section Wanted
variable (hw : self.wanted = true) (hreads : self.json.Reads) (hs : self.Holds set s)
include hw hreads hs

theorem exec_insert_of_holds (value : T) : (self.insert value).exec eval s =
    (.ok (decide (Insert.insert value set ≠ set)), (eval (.sadd self.name (self.json.toText value)) s).2) ∧
      self.Holds (Insert.insert value set) (eval (.sadd self.name (self.json.toText value)) s).2 := by
  have hval := evalAt_sadd self.name (self.json.toText value) (set.image self.json.toText)
  rw [← hs, ← Finset.image_insert] at hval
  simp only [Finset.mem_image, hreads.toText_injective.eq_iff, exists_eq_right] at hval
  refine ⟨?_, ?_⟩
  · unfold SetRepository.insert
    simp only [hw, Bool.not_true, Bool.false_eq_true, if_false]
    rw [Prog.exec_bind_ok (exec_send_ok (congrArg Prod.fst hval))]
    by_cases hmem : value ∈ set
    · simp [hmem]
    · simp [hmem]
  · exact (eval_self (.sadd self.name (self.json.toText value)) s).trans (congrArg Prod.snd hval)

omit hw in
/-- Texts are removed together with their elements. -/
theorem holds_srem (values : List T) :
    (evalAt (.srem self.name (values.map self.json.toText)) (s self.name)).1 =
        .ok (set ∩ values.toFinset).card ∧
      self.Holds (set \ values.toFinset) (eval (.srem self.name (values.map self.json.toText)) s).2 := by
  have hinj := hreads.toText_injective
  have htexts : (values.map self.json.toText).toFinset = values.toFinset.image self.json.toText := by
    ext text
    simp
  have hval := evalAt_srem self.name (values.map self.json.toText) (set.image self.json.toText)
  rw [← hs, htexts, ← Finset.image_inter _ _ hinj, Finset.card_image_of_injective _ hinj,
    ← Finset.image_sdiff _ _ hinj] at hval
  refine ⟨congrArg Prod.fst hval, ?_⟩
  exact (eval_self (.srem self.name (values.map self.json.toText)) s).trans (congrArg Prod.snd hval)

theorem exec_remove_of_holds (value : T) : (self.remove value).exec eval s =
    (.ok (decide (set.erase value ≠ set)), (eval (.srem self.name [self.json.toText value]) s).2) ∧
      self.Holds (set.erase value) (eval (.srem self.name [self.json.toText value]) s).2 := by
  obtain ⟨hreply, hholds⟩ := holds_srem hreads hs [value]
  rw [List.map_singleton] at hreply hholds
  rw [List.toFinset_cons, List.toFinset_nil, insert_empty_eq, Finset.sdiff_singleton_eq_erase] at hholds
  refine ⟨?_, hholds⟩
  unfold SetRepository.remove
  simp only [hw, Bool.not_true, Bool.false_eq_true, if_false]
  refine (Prog.exec_bind_ok (exec_send_ok hreply) _).trans ?_
  by_cases hmem : value ∈ set
  · simp [hmem]
  · simp [hmem]

/-- One update changes the set that the repository holds. -/
theorem holds_apply (update : Update T) : self.Holds (update.on set) ((self.apply update).exec eval s).2 := by
  cases update with
  | insert value =>
    obtain ⟨hexec, hholds⟩ := exec_insert_of_holds hw hreads hs value
    unfold apply
    rwa [Prog.exec_bind_ok hexec]
  | remove value =>
    obtain ⟨hexec, hholds⟩ := exec_remove_of_holds hw hreads hs value
    unfold apply
    rwa [Prog.exec_bind_ok hexec]
  | removeMulti values =>
    unfold apply removeMulti
    simp only [hw, Bool.not_true, Bool.false_eq_true, if_false]
    cases values with
    | nil => simpa [Update.on] using hs
    | cons value values =>
      obtain ⟨hreply, hholds⟩ := holds_srem hreads hs (value :: values)
      have hexec := exec_send_ok hreply
      show self.Holds _ ((send (.srem self.name ((value :: values).map self.json.toText)) >>= fun _ =>
        pure ()).exec eval s).2
      rwa [Prog.exec_bind_ok hexec]
  | clear =>
    have hval := evalAt_del self.name (set.image self.json.toText)
    rw [← hs] at hval
    unfold apply clear
    simp only [hw, Bool.not_true, Bool.false_eq_true, if_false, bind_assoc, pure_bind]
    rw [exec_send_pure]
    exact (eval_self (.del self.name) s).trans ((congrArg Prod.snd hval).trans (by rw [Update.on, Finset.image_empty]))

/-- What the repository reports. -/
theorem exec_question (question : Question T) : ((self.question question).exec eval s).1 = .ok
    (match question with
      | .members => set
      | .contains value => decide (value ∈ set)
      | .isEmpty => decide set.Nonempty
      | .insert value => decide (Insert.insert value set ≠ set)
      | .remove value => decide (set.erase value ≠ set) : question.Answer) := by
  cases question with
  | members => exact congrArg Prod.fst (exec_members_of_eq self hreads hs)
  | contains value =>
    have hval := evalAt_sismember self.name (self.json.toText value) (set.image self.json.toText)
    rw [← hs] at hval
    simp only [Finset.mem_image, hreads.toText_injective.eq_iff, exists_eq_right] at hval
    unfold SetRepository.question contains
    dsimp only
    rw [Prog.exec_bind_ok (exec_send_ok (congrArg Prod.fst hval))]
    by_cases hmem : value ∈ set
    · simp [hmem]
    · simp [hmem]
  | isEmpty =>
    have hval := evalAt_existsKey self.name (set.image self.json.toText)
    rw [← hs] at hval
    unfold SetRepository.question isEmpty
    simp only [hw, Bool.not_true, Bool.false_eq_true, if_false]
    rw [exec_send_ok (congrArg Prod.fst hval)]
    simp
  | insert value => exact congrArg Prod.fst (exec_insert_of_holds hw hreads hs value).1
  | remove value => exact congrArg Prod.fst (exec_remove_of_holds hw hreads hs value).1

theorem exec_question_iff (question : Question T) :
    ((self.question question).exec eval s).1 = .ok (question.answer set) ↔ question ≠ .isEmpty := by
  rw [exec_question hw hreads hs, Except.ok.injEq]
  cases question with
  | isEmpty =>
    refine iff_of_false (fun h => ?_) fun h => h rfl
    have heq : set.Nonempty ↔ set = ∅ := decide_eq_decide.mp h
    rw [Finset.nonempty_iff_ne_empty] at heq
    exact iff_not_self heq.symm
  | _ => exact iff_of_true rfl nofun

end Wanted

theorem holds_run (hw : self.wanted = true) (hreads : self.json.Reads) (updates : List (Update T))
    (hs : self.Holds set s) :
    self.Holds (updates.foldl (fun set update => update.on set) set) (self.interface.run updates s) := by
  induction updates generalizing set s with
  | nil => exact hs
  | cons update updates ih => exact ih (holds_apply hw hreads hs update)

end SetRepository

namespace MappedSetRepository

open SetRepository (Update Question)

variable {K V : Type} [DecidableEq K] [DecidableEq V] (self : MappedSetRepository K V)

def question (key : K) : (question : Question V) → RedisM question.Answer
  | .members => self.members key
  | .contains value => self.contains key value
  | .isEmpty => self.isEmpty key
  | .insert value => self.insert key value
  | .remove value => self.remove key value

omit [DecidableEq K] in
theorem question_eq (key : K) (question : Question V) :
    self.question key question = (self.setRepository key).question question := by cases question <;> rfl

/-- The updates of one key. -/
def updatesOf (key : K) (updates : List (K × Update V)) : List (Update V) :=
  (updates.filter fun update => update.1 = key).map Prod.snd

/-- No other key of the updates has the hash of this one. -/
def Alone (key : K) (updates : List (K × Update V)) : Prop :=
  ∀ update ∈ updates, self.hash update.1 = self.hash key → update.1 = key

variable {self}

theorem holds_run (hw : self.wanted = true) (hreads : self.json.Reads) {key : K}
    {updates : List (K × Update V)} (halone : self.Alone key updates) {set : Finset V} {s : Store}
    (hs : (self.setRepository key).Holds set s) :
    (self.setRepository key).Holds ((updatesOf key updates).foldl (fun set update => update.on set) set)
      (self.interface.run updates s) := by
  induction updates generalizing set s with
  | nil => exact hs
  | cons update updates ih =>
    obtain ⟨hfirst, hrest⟩ := List.forall_mem_cons.mp halone
    show (self.setRepository key).Holds _
      (self.interface.run updates ((self.apply update.1 update.2).exec eval s).2)
    rw [self.apply_eq]
    by_cases hkey : update.1 = key
    · have hof : updatesOf key (update :: updates) = update.2 :: updatesOf key updates := by
        simp [updatesOf, hkey]
      rw [hof, hkey]
      exact ih hrest (SetRepository.holds_apply hw hreads hs update.2)
    · have hof : updatesOf key (update :: updates) = updatesOf key updates := by
        simp [updatesOf, hkey]
      rw [hof]
      refine ih hrest ?_
      -- the name of the set of another key is another one
      have hname : (self.setRepository key).name ∉ ({(self.setRepository update.1).name} : Set String) := by
        intro heq
        refine hkey (hfirst ?_)
        have hkeys := String.append_right_inj _ |>.mp (Set.mem_singleton_iff.mp heq)
        exact (toString_injective (String.append_right_inj _ |>.mp hkeys)).symm
      rw [SetRepository.Holds, ((self.setRepository update.1).usesKeys_apply update.2).keeps hname]
      exact hs

end MappedSetRepository

/-! ### Refinement -/

open SetRepository (Update Question)

/-- After any updates the repositories report what the sets do, unless they are asked whether they are empty. -/
theorem set_repositories_refine_iff {K T : Type} [DecidableEq K] [DecidableEq T] :
    (∀ self : SetRepository T, self.wanted = true → self.json.Reads → ∀ s : Store, s self.name = none →
      ∀ (updates : List (Update T)) (question : Question T),
        ((self.question question).exec eval (self.interface.run updates s)).1 =
            .ok (question.answer (Update.all updates)) ↔ question ≠ .isEmpty) ∧
    (∀ self : MappedSetRepository K T, self.wanted = true → self.json.Reads →
      ∀ (s : Store) (key : K), s (self.setRepository key).name = none →
      ∀ updates : List (K × Update T), self.Alone key updates → ∀ question : Question T,
        ((self.question key question).exec eval (self.interface.run updates s)).1 =
            .ok (question.answer (Update.all (MappedSetRepository.updatesOf key updates))) ↔
          question ≠ .isEmpty) := by
  constructor
  · intro self hw hreads s hs updates question
    have hholds := SetRepository.holds_run hw hreads updates (SetRepository.holds_empty hs)
    exact SetRepository.exec_question_iff hw hreads hholds question
  · intro self hw hreads s key hs updates halone question
    have hholds := MappedSetRepository.holds_run hw hreads halone (SetRepository.holds_empty hs)
    rw [self.question_eq]
    exact SetRepository.exec_question_iff hw hreads hholds question

/-- Texts for texts. -/
def plainCodec : Codec String := ⟨id, some⟩

def numberedGuilds : MappedSetRepository Nat String := .new "user_guilds" true UInt64.ofNat plainCodec

def plainSet : SetRepository String := .new "unavailable_guilds" true plainCodec

/-- A guild that is available again, and a user that has left one of its two guilds. -/
theorem set_repositories_refine_iff_of_leave :
    ((plainSet.question .members).exec eval
        (plainSet.interface.run [.insert "1", .insert "2", .remove "1"] fun _ => none)).1 =
      .ok (Question.answer {"2"} .members) ∧
    ((numberedGuilds.question 7 .members).exec eval (numberedGuilds.interface.run
        [(7, .insert "1"), (8, .insert "1"), (7, .insert "2"), (7, .remove "2")] fun _ => none)).1 =
      .ok (Question.answer {"1"} .members) := by
  obtain ⟨hset, hmapped⟩ := set_repositories_refine_iff (K := Nat) (T := String)
  constructor
  · have hanswer := hset plainSet rfl (fun _ => rfl) (fun _ => none) rfl
      [.insert "1", .insert "2", .remove "1"] .members
    exact (hanswer.mpr nofun).trans (congrArg Except.ok (by decide))
  · have hanswer := hmapped numberedGuilds rfl (fun _ => rfl) (fun _ => none) 7 rfl
      [(7, .insert "1"), (8, .insert "1"), (7, .insert "2"), (7, .remove "2")]
      (by unfold MappedSetRepository.Alone; decide) .members
    exact (hanswer.mpr nofun).trans (congrArg Except.ok (by decide))

/-- The set of the user is said to be empty as long as it is in a guild, and not any more afterwards. -/
theorem isEmpty_inverted :
    ((numberedGuilds.isEmpty 7).exec eval (numberedGuilds.interface.run
        [(7, .insert "1"), (7, .insert "2"), (7, .remove "2")] fun _ => none)).1 = .ok true ∧
    ((numberedGuilds.members 7).exec eval (numberedGuilds.interface.run
        [(7, .insert "1"), (7, .insert "2"), (7, .remove "2")] fun _ => none)).1 = .ok {"1"} ∧
    ((numberedGuilds.isEmpty 7).exec eval fun _ => none).1 = .ok false ∧
    ((numberedGuilds.members 7).exec eval fun _ => none).1 = .ok ∅ := by
  refine ⟨rfl, rfl, rfl, rfl⟩

end Tulpje.Redis
