import Tulpje.Framework.Registry
import Tulpje.Lib.Run

/-!
# The task scheduler

`tulpje-framework/src/scheduler.rs`. The scheduler of `async_cron_scheduler` is a parameter: `insert` starts a
job under an id that no running job has, `remove` stops the job with an id, and the service ends with all jobs when the
scheduler is dropped. A message is handled by calls of `enable_task` and `disable_task`, one after the other
(`handle_eq`).

`enable_task` replaces the entry of the job map without a look at it, so the map describes the running jobs as
long as no task is enabled that is enabled already (`describes_iff`).
-/

namespace Tulpje.Framework

open Lib

variable {F : Funcs}

/-- `async_cron_scheduler::Scheduler`, with the jobs that it runs. -/
structure CronScheduler (Job : Type) where
  State : Type
  JobId : Type
  launch : State
  insert : State → Job → JobId × State
  remove : State → JobId → State
  /-- The scheduler is dropped, and its service has ended. -/
  drop : State → State
  live : State → JobId → Option Job
  live_launch : ∀ id, live launch id = none
  insert_fresh : ∀ s job, live s (insert s job).1 = none
  live_insert : ∀ s job, live (insert s job).2 (insert s job).1 = some job
  live_insert_of_ne : ∀ s job id, id ≠ (insert s job).1 → live (insert s job).2 id = live s id
  live_remove : ∀ s id, live (remove s id) id = none
  live_remove_of_ne : ∀ s id id', id' ≠ id → live (remove s id) id' = live s id'
  live_drop : ∀ s id, live (drop s) id = none

/-- Every job has a slot of its own, which `remove` empties. -/
def CronScheduler.slots (Job : Type) : CronScheduler Job where
  State := List (Option Job)
  JobId := Nat
  launch := []
  insert s job := (s.length, s ++ [some job])
  remove s id := s.set id none
  drop _ := []
  live s id := s[id]?.join
  live_launch id := rfl
  insert_fresh s job := by simp
  live_insert s job := by simp
  live_insert_of_ne s job id h := by
    rcases Nat.lt_or_gt_of_ne h with hlt | hgt
    · simp only [List.getElem?_append_left hlt]
    · rw [List.getElem?_eq_none (Nat.le_of_lt hgt), List.getElem?_eq_none]
      rw [List.length_append, List.length_singleton]
      exact hgt
  live_remove s id := by
    rw [List.getElem?_set_self']
    cases s[id]? <;> rfl
  live_remove_of_ne s id id' h := by rw [List.getElem?_set_ne (Ne.symm h)]
  live_drop s id := rfl

inductive SchedulerTaskMessage (F : Funcs)
  | start (tasks : List (TaskHandler F))
  | enable (task : TaskHandler F)
  | disable (name : String)

structure Scheduler (cron : CronScheduler (TaskHandler F)) where
  jobMap : HashMap String cron.JobId
  scheduler : cron.State

namespace Scheduler
variable {cron : CronScheduler (TaskHandler F)}

def new : Scheduler cron := ⟨∅, cron.launch⟩

variable (self : Scheduler cron)

def enableTask (handler : TaskHandler F) : Scheduler cron :=
  let inserted := cron.insert self.scheduler handler
  { jobMap := self.jobMap.insert handler.name inserted.1, scheduler := inserted.2 }

def disableTask (name : String) : Scheduler cron :=
  match self.jobMap.lookup name with
  | none => self
  | some jobId => { jobMap := self.jobMap.erase name, scheduler := cron.remove self.scheduler jobId }

/-- The match on a message in the loop of `run`. -/
def handle : SchedulerTaskMessage F → Scheduler cron
  | .start tasks => tasks.foldl enableTask self
  | .enable task => self.enableTask task
  | .disable name => self.disableTask name

def handleAll (messages : List (SchedulerTaskMessage F)) : Scheduler cron := messages.foldl handle self

/-- The loop at the end of `run`: the map is drained, in some order of its entries, and each job removed. -/
def drain (jobs : List (String × cron.JobId)) : Scheduler cron :=
  { jobMap := ∅, scheduler := jobs.foldl (fun scheduler job => cron.remove scheduler job.2) self.scheduler }

/-- The end of `run`: the scheduler that was taken is dropped after the loop, and its service is joined. -/
def shutdown (jobs : List (String × cron.JobId)) : Scheduler cron :=
  { self.drain jobs with scheduler := cron.drop (self.drain jobs).scheduler }

/-- The entries of the job map, in some order. -/
def IsEntries (jobs : List (String × cron.JobId)) : Prop :=
  ∀ name jobId, (name, jobId) ∈ jobs ↔ self.jobMap.lookup name = some jobId

/-! ### Calls -/

inductive Call (F : Funcs)
  | enableTask (handler : TaskHandler F)
  | disableTask (name : String)

def calls : SchedulerTaskMessage F → List (Call F)
  | .start tasks => tasks.map .enableTask
  | .enable task => [.enableTask task]
  | .disable name => [.disableTask name]

def call : Call F → Scheduler cron
  | .enableTask handler => self.enableTask handler
  | .disableTask name => self.disableTask name

def run (acts : List (Call F)) : Scheduler cron := acts.foldl call self

variable {self}

theorem handle_eq (message : SchedulerTaskMessage F) : self.handle message = self.run (calls message) := by
  cases message with
  | start tasks =>
    show tasks.foldl enableTask self = (tasks.map .enableTask).foldl call self
    rw [List.foldl_map]
    rfl
  | enable task => rfl
  | disable name => rfl

theorem handleAll_eq (messages : List (SchedulerTaskMessage F)) :
    self.handleAll messages = self.run (messages.flatMap calls) := by
  induction messages generalizing self with
  | nil => rfl
  | cons message messages ih =>
    rw [handleAll, List.foldl_cons, ← handleAll, ih, handle_eq, List.flatMap_cons, run, run, run,
      List.foldl_append]

/-! ### The job map and the running jobs -/

variable (self) in
/-- The job with this id is live and runs the task. -/
def Runs (name : String) (id : cron.JobId) : Prop :=
  ∃ handler, cron.live self.scheduler id = some handler ∧ handler.name = name

/-- The live jobs are those of the map, and no task has two. -/
structure Describes (s : Scheduler cron) : Prop where
  live_iff : ∀ id, (∃ name, s.Runs name id) ↔ ∃ name, s.jobMap.lookup name = some id
  once : ∀ name id id', s.Runs name id → s.Runs name id' → id = id'

variable (self) in
/-- What the map has under a name is a live job of this task, whatever was enabled before. -/
def Sound : Prop := ∀ name id, self.jobMap.lookup name = some id → self.Runs name id

theorem Runs.name_eq {name name' : String} {id : cron.JobId} (h : self.Runs name id)
    (h' : self.Runs name' id) : name = name' := by
  obtain ⟨handler, hlive, rfl⟩ := h
  obtain ⟨handler', hlive', rfl⟩ := h'
  rw [hlive] at hlive'
  rw [Option.some.inj hlive']

/-- A sound map describes the live jobs if each of them is found under its name. -/
theorem Sound.describes_iff_enabled (h : self.Sound) :
    self.Describes ↔ ∀ name id, self.Runs name id → self.jobMap.lookup name = some id := by
  constructor
  · intro hdesc name id hruns
    obtain ⟨name', hlookup⟩ := (hdesc.live_iff id).mp ⟨name, hruns⟩
    rwa [hruns.name_eq (h name' id hlookup)]
  · intro hfound
    refine ⟨fun id => ⟨?_, ?_⟩, fun name id id' hid hid' => ?_⟩
    · rintro ⟨name, hruns⟩
      exact ⟨name, hfound name id hruns⟩
    · rintro ⟨name, hlookup⟩
      exact ⟨name, h name id hlookup⟩
    · have hsame := (hfound name id hid).symm.trans (hfound name id' hid')
      exact Option.some.inj hsame

/-! ### One call -/

theorem runs_enableTask {handler : TaskHandler F} {name : String} {id : cron.JobId} :
    (self.enableTask handler).Runs name id ↔
      (id = (cron.insert self.scheduler handler).1 ∧ handler.name = name) ∨ self.Runs name id := by
  unfold Runs enableTask
  dsimp only
  by_cases hid : id = (cron.insert self.scheduler handler).1
  · subst hid
    rw [cron.live_insert, cron.insert_fresh]
    simp
  · rw [cron.live_insert_of_ne _ _ _ hid]
    simp [hid]

/-- A new job has an id that no live job had. -/
theorem Runs.ne_inserted {name : String} {id : cron.JobId} (h : self.Runs name id)
    (handler : TaskHandler F) : id ≠ (cron.insert self.scheduler handler).1 := by
  rintro rfl
  obtain ⟨_, hlive, -⟩ := h
  rw [cron.insert_fresh] at hlive
  cases hlive

theorem disableTask_of_none {name : String} (h : self.jobMap.lookup name = none) :
    self.disableTask name = self := by
  unfold disableTask
  rw [h]

theorem disableTask_of_some {name : String} {jobId : cron.JobId} (h : self.jobMap.lookup name = some jobId) :
    self.disableTask name =
      { jobMap := self.jobMap.erase name, scheduler := cron.remove self.scheduler jobId } := by
  unfold disableTask
  rw [h]

theorem live_remove_iff {s : cron.State} {id id' : cron.JobId} {handler : TaskHandler F} :
    cron.live (cron.remove s id) id' = some handler ↔ id' ≠ id ∧ cron.live s id' = some handler := by
  by_cases hid : id' = id
  · subst hid
    simp [cron.live_remove]
  · simp [cron.live_remove_of_ne _ _ _ hid, hid]

theorem Sound.call (h : self.Sound) (a : Call F) : (self.call a).Sound := by
  intro name id hlookup
  cases a with
  | enableTask handler =>
    refine runs_enableTask.mpr ?_
    rcases HashMap.lookup_insert_eq_some_iff.mp hlookup with ⟨rfl, hid⟩ | ⟨-, hkept⟩
    · exact .inl ⟨hid.symm, rfl⟩
    · exact .inr (h name id hkept)
  | disableTask name' =>
    rcases hfound : self.jobMap.lookup name' with _ | jobId
    · simp only [Scheduler.call, disableTask_of_none hfound] at hlookup ⊢
      exact h name id hlookup
    · simp only [Scheduler.call, disableTask_of_some hfound] at hlookup ⊢
      obtain ⟨hne, hkept⟩ := HashMap.lookup_erase_eq_some_iff.mp hlookup
      obtain ⟨handler, hlive, rfl⟩ := h name id hkept
      refine ⟨handler, live_remove_iff.mpr ⟨?_, hlive⟩, rfl⟩
      rintro rfl
      exact hne (Runs.name_eq ⟨handler, hlive, rfl⟩ (h name' id hfound))

variable (self) in
/-- The call does not enable a task that has an entry. -/
def Fresh : Call F → Prop
  | .enableTask handler => self.jobMap.lookup handler.name = none
  | .disableTask _ => True

/-- A description stays one exactly if no entry is replaced. -/
theorem describes_call_iff (h : self.Sound) (hdesc : self.Describes) (a : Call F) :
    (self.call a).Describes ↔ self.Fresh a := by
  rw [(h.call a).describes_iff_enabled]
  rw [h.describes_iff_enabled] at hdesc
  cases a with
  | enableTask handler =>
    have hlookup : (self.call (.enableTask handler)).jobMap.lookup handler.name =
        some (cron.insert self.scheduler handler).1 := Finmap.lookup_insert _
    constructor
    · intro hfound
      -- the job that the replaced entry named would have to be found under its name
      refine Option.eq_none_iff_forall_ne_some.mpr fun id hid => ?_
      have hruns := h handler.name id hid
      have hagain := hfound handler.name id (runs_enableTask.mpr (.inr hruns))
      exact hruns.ne_inserted handler (Option.some.inj (hagain.symm.trans hlookup))
    · intro hfresh name id hruns
      rcases runs_enableTask.mp hruns with ⟨rfl, rfl⟩ | hruns
      · exact hlookup
      · have hkept := hdesc name id hruns
        have hne : name ≠ handler.name := by
          rintro rfl
          rw [show self.jobMap.lookup handler.name = none from hfresh] at hkept
          cases hkept
        exact (Finmap.lookup_insert_of_ne _ hne).trans hkept
  | disableTask name' =>
    refine iff_of_true (fun name id hruns => ?_) trivial
    rcases hfound : self.jobMap.lookup name' with _ | jobId
    · simp only [call, disableTask_of_none hfound] at hruns ⊢
      exact hdesc name id hruns
    · simp only [call, disableTask_of_some hfound] at hruns ⊢
      obtain ⟨handler, hlive, rfl⟩ := hruns
      obtain ⟨hne, hlive⟩ := live_remove_iff.mp hlive
      have hkept := hdesc handler.name id ⟨handler, hlive, rfl⟩
      have hname : handler.name ≠ name' := by
        rintro rfl
        exact hne (Option.some.inj (hkept.symm.trans hfound))
      exact (Finmap.lookup_erase_ne hname).trans hkept

/-! ### Runs -/

/-- The tasks that are enabled after a call. -/
def enabledAfter (enabled : Finset String) : Call F → Finset String
  | .enableTask handler => insert handler.name enabled
  | .disableTask name => enabled.erase name

/-- The call does not enable a task that is enabled. -/
def NotEnabled (enabled : Finset String) : Call F → Prop
  | .enableTask handler => handler.name ∉ enabled
  | .disableTask _ => True

theorem keys_call (a : Call F) : (self.call a).jobMap.keys = enabledAfter self.jobMap.keys a := by
  ext name
  cases a with
  | enableTask handler => simp [call, enableTask, enabledAfter, Finmap.mem_keys]
  | disableTask name' =>
    rcases hfound : self.jobMap.lookup name' with _ | jobId
    · have hmem : name' ∉ self.jobMap.keys := Finmap.lookup_eq_none.mp hfound
      simp [call, disableTask_of_none hfound, enabledAfter, Finset.erase_eq_of_notMem hmem]
    · simp [call, disableTask_of_some hfound, enabledAfter, Finmap.mem_keys]

theorem fresh_iff (a : Call F) : self.Fresh a ↔ NotEnabled self.jobMap.keys a := by
  cases a with
  | enableTask handler => exact Finmap.lookup_eq_none
  | disableTask name => exact Iff.rfl

theorem describes_new : (new : Scheduler cron).Describes := by
  have hnone : ∀ name id, ¬ (new : Scheduler cron).Runs name id := by
    rintro name id ⟨handler, hlive, -⟩
    rw [show cron.live (new : Scheduler cron).scheduler id = none from cron.live_launch id] at hlive
    cases hlive
  refine ⟨fun id => ⟨?_, ?_⟩, fun name id id' h => absurd h (hnone name id)⟩
  · rintro ⟨name, hruns⟩
    exact absurd hruns (hnone name id)
  · rintro ⟨name, hlookup⟩
    rw [show (new : Scheduler cron).jobMap.lookup name = none from Finmap.lookup_empty name] at hlookup
    cases hlookup

/-- Nothing is live after the map was drained, if it described the live jobs. -/
theorem Describes.drain (h : self.Describes) {jobs : List (String × cron.JobId)} (hjobs : self.IsEntries jobs)
    (id : cron.JobId) : cron.live (self.drain jobs).scheduler id = none := by
  have hremoved : ∀ (jobs : List (String × cron.JobId)) (s : cron.State) (handler : TaskHandler F),
      cron.live (jobs.foldl (fun scheduler job => cron.remove scheduler job.2) s) id = some handler →
        cron.live s id = some handler ∧ ∀ job ∈ jobs, job.2 ≠ id := by
    intro jobs
    induction jobs with
    | nil => exact fun s handler hlive => ⟨hlive, nofun⟩
    | cons job jobs ih =>
      intro s handler hlive
      obtain ⟨hlive, hne⟩ := ih _ handler hlive
      obtain ⟨hid, hlive⟩ := live_remove_iff.mp hlive
      exact ⟨hlive, List.forall_mem_cons.mpr ⟨Ne.symm hid, hne⟩⟩
  refine Option.eq_none_iff_forall_ne_some.mpr fun handler hlive => ?_
  obtain ⟨hbefore, hne⟩ := hremoved jobs self.scheduler handler hlive
  obtain ⟨name, hlookup⟩ := (h.live_iff id).mp ⟨handler.name, handler, hbefore, rfl⟩
  exact hne (name, id) ((hjobs name id).mpr hlookup) rfl

/-- After `disable_task` no job of the task is live, if the map describes the live jobs. -/
theorem Describes.not_runs (h : self.Describes) (hsound : self.Sound) {name : String}
    (hnone : self.jobMap.lookup name = none) (id : cron.JobId) : ¬ self.Runs name id := by
  intro hruns
  rw [hsound.describes_iff_enabled] at h
  rw [h name id hruns] at hnone
  cases hnone

theorem lookup_disableTask (name : String) : (self.disableTask name).jobMap.lookup name = none := by
  rcases hfound : self.jobMap.lookup name with _ | jobId
  · rw [disableTask_of_none hfound, hfound]
  · rw [disableTask_of_some hfound]
    exact Finmap.lookup_erase ..

theorem sound_run (acts : List (Call F)) : ((new : Scheduler cron).run acts).Sound := by
  have hnew : (new : Scheduler cron).Sound := by
    intro name id hlookup
    rw [show (new : Scheduler cron).jobMap.lookup name = none from Finmap.lookup_empty name] at hlookup
    cases hlookup
  exact foldl_invariant Sound (fun _ a h => h.call a) hnew acts

theorem describes_run_iff (acts : List (Call F)) :
    (∀ pre, pre <+: acts → ((new : Scheduler cron).run pre).Describes) ↔
      AllSteps enabledAfter NotEnabled ∅ acts := by
  have hruns : (∀ pre, pre <+: acts → ((new : Scheduler cron).run pre).Describes) ↔
      AllSteps call Fresh (new : Scheduler cron) acts :=
    forall_prefix_iff_allSteps Sound Describes (fun _ a h (_ : True) => h.call a)
      (fun _ a h _ hdesc => describes_call_iff h hdesc a) (fun _ _ => trivial) (sound_run []) describes_new
  have hfresh : (Fresh : Scheduler cron → Call F → Prop) = fun s a => NotEnabled s.jobMap.keys a :=
    funext fun s => funext fun a => propext (fresh_iff a)
  rw [hruns, hfresh]
  exact allSteps_view (fun s : Scheduler cron => s.jobMap.keys) (fun s a => keys_call a) new acts

/-- The job map describes the live jobs in every state that a list of messages leads through, no job of a task
is live after the task was disabled, and at a shutdown none is left when the map is drained and none when `run` ends,
exactly if no task is enabled while it is enabled. -/
theorem describes_iff (messages : List (SchedulerTaskMessage F)) :
    ((∀ pre, pre <+: messages.flatMap calls → ((new : Scheduler cron).run pre).Describes) ∧
      (∀ pre name, pre ++ [.disable name] <+: messages →
        ∀ id, ¬ ((new : Scheduler cron).handleAll (pre ++ [.disable name])).Runs name id) ∧
      ∀ pre, pre <+: messages → ∀ jobs, ((new : Scheduler cron).handleAll pre).IsEntries jobs →
        ∀ id, cron.live (((new : Scheduler cron).handleAll pre).drain jobs).scheduler id = none ∧
          cron.live (((new : Scheduler cron).handleAll pre).shutdown jobs).scheduler id = none) ↔
      AllSteps enabledAfter NotEnabled ∅ (messages.flatMap calls) := by
  have hrun : (∀ pre, pre <+: messages.flatMap calls → ((new : Scheduler cron).run pre).Describes) ↔
      AllSteps enabledAfter NotEnabled ∅ (messages.flatMap calls) := describes_run_iff _
  rw [← hrun]
  refine and_iff_left_of_imp fun hdesc => ?_
  have hhandled : ∀ pre, pre <+: messages → ((new : Scheduler cron).handleAll pre).Describes := by
    rintro pre ⟨post, rfl⟩
    rw [handleAll_eq]
    refine hdesc _ ⟨post.flatMap calls, ?_⟩
    rw [List.flatMap_append]
  refine ⟨fun pre name hpre id => ?_, fun pre hpre jobs hjobs id =>
    ⟨(hhandled pre hpre).drain hjobs id, cron.live_drop _ id⟩⟩
  have hlast : (new : Scheduler cron).handleAll (pre ++ [.disable name]) =
      ((new : Scheduler cron).handleAll pre).disableTask name := by
    rw [handleAll, List.foldl_append]
    rfl
  have hsound : ((new : Scheduler cron).handleAll (pre ++ [.disable name])).Sound := by
    rw [handleAll_eq]
    exact sound_run _
  refine (hhandled _ hpre).not_runs hsound ?_ id
  rw [hlast]
  exact lookup_disableTask name

/-- The cleanup task of `tulpje_mod_core`. -/
def guildsCleanup : TaskHandler Named :=
  ⟨"core", "guilds:cleanup", ⟨"@daily"⟩, "tasks::delete_removed_guilds"⟩

/-- A task that is enabled twice and disabled once has a live job that the map does not know, so nothing but the end of
`run` stops it. -/
theorem disabled_task_runs :
    let scheduler := (new : Scheduler (.slots (TaskHandler Named))).handleAll
      [.start [guildsCleanup], .enable guildsCleanup, .disable "guilds:cleanup"]
    (∃ id, scheduler.Runs "guilds:cleanup" id) ∧ ∀ name, scheduler.jobMap.lookup name = none := by
  refine ⟨⟨(0 : Nat), guildsCleanup, rfl, rfl⟩, fun name => ?_⟩
  rfl

end Scheduler

end Tulpje.Framework
