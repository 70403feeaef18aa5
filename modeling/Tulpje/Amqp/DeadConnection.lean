import Tulpje.Amqp.Start

/-!
# Channels on a connection that is closed

After a start, a failed `open_channel` leads to `ReopeningChannel` and back to `OpeningChannel` on the
same connection, while the close event of that connection waits in a queue that only `Connected` reads.
So a connection that closes between two channels is never left: `Stuck` is kept by every step, and
every second step of the task is one more attempt. `open_channel_on_closed_iff` says that this is the
only way to a second attempt on a closed connection.
-/

namespace Tulpje.Amqp

open Lib

/-- The connection a state holds. -/
def State.conn : State → Option Connection
  | .openingChannel conn _ | .reopeningChannel conn _ | .declaringConsumer conn _ _
  | .connected conn _ _ _ | .closingChannel conn _ _ _ => some conn
  | .closingConnection conn _ => conn
  | _ => none

/-- The connection of a state between two channels. -/
def State.opensOn : State → Option Connection
  | .openingChannel conn _ | .reopeningChannel conn _ => some conn
  | _ => none

@[simp] theorem State.conn_push (state : State) (event : Event) :
    (state.push event).conn = state.conn := by
  cases state <;> rfl

@[simp] theorem State.opensOn_push (state : State) (event : Event) :
    (state.push event).opensOn = state.opensOn := by
  cases state <;> rfl

/-- What a run of a state does to connections. -/
inductive ConnectionStep (state next : State) (shared shared' : Shared) (net net' : Net)
    (answer : Answer) : Prop
  | opensChannel (conn : Connection) (eventRx : List Event)
      (hstate : state = .openingChannel conn eventRx) (hshared : shared' = shared)
      (hnet : net' = net.afterOpenChannel conn) (hconn : next.conn = some conn)
      (hopens : next.opensOn = none ∨ next.opensOn = some conn)
  | connects (hstate : state = .connecting true) (hnet : net' = { net with conns := net.conns + 1 })
      (hconn : next.conn = some ⟨net.conns⟩)
  | waited (conn : Connection) (eventRx : List Event)
      (hstate : state = .reopeningChannel conn eventRx) (hshared : shared' = shared)
      (hnet : net' = net) (hnext : next = .openingChannel conn eventRx)
  | reopens (conn : Connection) (chan : Option Channel) (eventRx : List Event) (reason : CloseReason)
      (hstate : state = .closingChannel conn chan eventRx reason) (hreason : reason.reopens = true)
      (hclose : answer.fails .closeChannel = false) (hnet : net' = net)
      (hnext : next = .reopeningChannel conn eventRx)
  | closes (conn : Connection) (reason : CloseReason)
      (hstate : state = .closingConnection (some conn) reason)
      (hnet : net' = { net with closed := conn :: net.closed }) (hconn : next.conn = none)
  | other (hchannels : net'.channelOpens = net.channelOpens) (hconns : net'.conns = net.conns)
      (hclosed : net'.closed = net.closed) (hopens : next.opensOn = none)
      (hconn : next.conn = none ∨ next.conn = state.conn)

theorem State.Ran.connectionStep {state next : State} {shared shared' : Shared} {net net' : Net} {answer : Answer}
    {branch : Branch} (h : state.Ran shared net answer branch next shared' net') :
    ConnectionStep state next shared shared' net net' answer := by
  cases h with
  | disconnected | opens | reconnecting | finished => exact .other rfl rfl rfl rfl (.inl rfl)
  | noConnection => refine .other rfl rfl rfl ?_ (.inl ?_) <;> cases shared.start.held <;> rfl
  | notRegistered | connection => exact .connects rfl rfl rfl
  | noChannel conn eventRx =>
    refine .opensChannel conn eventRx rfl rfl rfl ?_ ?_ <;>
      cases shared.start.held <;> simp [State.conn, State.opensOn]
  | notSetUp conn eventRx => exact .opensChannel conn eventRx rfl rfl rfl rfl (.inl rfl)
  | channel conn eventRx =>
    refine .opensChannel conn eventRx rfl rfl rfl ?_ (.inl ?_) <;> cases shared.recvTx <;> rfl
  | reopeningChannel conn eventRx => exact .waited conn eventRx rfl rfl rfl rfl
  | noConsumer | consumer | entersLoop | channelClosed | channelNotClosed =>
    exact .other rfl rfl rfl rfl (.inr rfl)
  | loop conn chan eventRx =>
    obtain ⟨⟨eventRx', hnext⟩, handed, hnet⟩ :=
      Connected.run_cases conn chan eventRx net answer true shared branch
    rw [hnet]
    rcases hnext with hnext | ⟨reason, hnext⟩ <;> rw [hnext] <;> exact .other rfl rfl rfl rfl (.inr rfl)
  | reopens conn chan eventRx reason hreopens hclose =>
    exact .reopens conn (some chan) eventRx reason rfl hreopens hclose rfl rfl
  | closingConnection conn reason => exact .closes conn reason rfl rfl rfl
  | closedConnection reason =>
    rcases (ClosedConnection.run_cases reason shared).1 with ⟨-, hnext⟩ | ⟨-, final, hnext⟩ <;>
      exact .other rfl rfl rfl (by rw [hnext]; rfl) (.inl (by rw [hnext]; rfl))

/-! ### The steps that leave a closed connection -/

/-- After the start, the task waits for a channel on the connection or is about to try again. -/
def World.OpensOn (w : World) (conn : Connection) : Prop :=
  w.shared.start.held = false ∧ ∃ state, w.task = .running state ∧ state.opensOn = some conn

/-- A connection does not close between two channels, and a channel is not closed without an error, to
be opened again, on a connection that is closed already. -/
def World.Leaves (w : World) : Action → Prop
  | .close conn | .callback (.connectionClose conn) => conn.id < w.net.conns → ¬ w.OpensOn conn
  | .task answer _ =>
    ∀ conn chan eventRx reason, w.task = .running (.closingChannel conn chan eventRx reason) →
      reason.reopens = true → w.net.isClosed conn = true → answer.fails .closeChannel = true
  | _ => True

/-- At most one attempt to open a channel is made on each connection after it was closed. -/
def World.OpensOnceOnClosed (w : World) : Prop :=
  ∀ conn, w.net.channelOpens.count (conn, true) ≤ 1

/-- The invariant of the runs that leave closed connections. -/
structure Leaving (w : World) : Prop where
  phase : w.Phase
  closed_lt : ∀ conn, w.net.isClosed conn = true → conn.id < w.net.conns
  conn_lt : ∀ state conn, w.task = .running state → state.conn = some conn → conn.id < w.net.conns
  opens_alive : ∀ conn, w.OpensOn conn → w.net.isClosed conn = false
  none_closed : w.startFailed = false → ∀ conn, (conn, true) ∉ w.net.channelOpens
  once : w.OpensOnceOnClosed

theorem Net.isClosed_cons (net : Net) (c conn : Connection) :
    { net with closed := c :: net.closed }.isClosed conn = true ↔ conn = c ∨ net.isClosed conn = true := by
  simp [Net.isClosed]

theorem State.conn_of_opensOn {state : State} {conn : Connection} (h : state.opensOn = some conn) :
    state.conn = some conn := by
  cases state <;> first | exact h | cases h

theorem leaving_new (queueName : String) (recvTx : Option (Unbounded Bytes)) :
    Leaving (World.new queueName recvTx) where
  phase := phase_new queueName recvTx
  closed_lt _ h := by simp [World.new, Net.isClosed] at h
  conn_lt _ _ h := by simp [World.new] at h
  opens_alive _ h := by simp [World.OpensOn, World.new] at h
  none_closed _ _ := by simp [World.new]
  once _ := by simp [World.new]

/-- An attempt on a closed connection is made before the start only, and then the start has failed. -/
theorem Leaving.opensChannel {w : World} (h : Leaving w) {conn : Connection} {eventRx : List Event}
    (htask : w.task = .running (.openingChannel conn eventRx))
    (hclosed : w.net.isClosed conn = true) :
    w.startFailed = false ∧ w.connectedRuns = 0 := by
  cases h.phase with
  | starting _ hseen =>
    obtain ⟨-, -, hruns, hfailed⟩ := Seen.mk.inj hseen
    exact ⟨hfailed, hruns⟩
  | started n _ hseen =>
    have halive := h.opens_alive conn ⟨congrArg Seen.held hseen, _, htask, rfl⟩
    rw [hclosed] at halive
    cases halive
  | reporting _ hshape _ | failed _ hshape _ =>
    rw [htask] at hshape
    exact absurd hshape id

/-- A step that opens no channel: the invariant is left to check of the connections only. -/
theorem Leaving.of_channels {w w' : World} (h : Leaving w) (hphase : w'.Phase)
    (hchannels : w'.net.channelOpens = w.net.channelOpens)
    (hfailed : w'.startFailed = false → w.startFailed = false)
    (hclosed : ∀ conn, w'.net.isClosed conn = true → conn.id < w'.net.conns)
    (hconn : ∀ state conn, w'.task = .running state → state.conn = some conn →
      conn.id < w'.net.conns)
    (halive : ∀ conn, w'.OpensOn conn → w'.net.isClosed conn = false) : Leaving w' where
  phase := hphase
  closed_lt := hclosed
  conn_lt := hconn
  opens_alive := halive
  none_closed hnot := by
    rw [hchannels]
    exact h.none_closed (hfailed hnot)
  once := by
    unfold World.OpensOnceOnClosed
    rw [hchannels]
    exact h.once

theorem Leaving.of_next {w w' : World} (h : Leaving w) (hphase : w'.Phase) {next : State}
    (htask' : w'.task = .running next) (hchannels : w'.net.channelOpens = w.net.channelOpens)
    (hfailed : w'.startFailed = false → w.startFailed = false)
    (hclosed : ∀ conn, w'.net.isClosed conn = true → conn.id < w'.net.conns)
    (hconn : ∀ conn, next.conn = some conn → conn.id < w'.net.conns)
    (halive : ∀ conn, w'.shared.start.held = false → next.opensOn = some conn →
      w'.net.isClosed conn = false) : Leaving w' := by
  refine h.of_channels hphase hchannels hfailed hclosed ?_ ?_
  · rintro state conn hstate hc
    obtain rfl := Task.running.inj (htask'.symm.trans hstate)
    exact hconn conn hc
  · rintro conn ⟨hheld, state, hstate, hc⟩
    obtain rfl := Task.running.inj (htask'.symm.trans hstate)
    exact halive conn hheld hc

/-- An attempt to open a channel. It is the first one on a closed connection, and the start fails with it. -/
theorem Leaving.of_attempt {w w' : World} (h : Leaving w) {conn : Connection} {eventRx : List Event}
    (htask : w.task = .running (.openingChannel conn eventRx)) (hphase : w'.Phase) {next : State}
    (htask' : w'.task = .running next) (hheld : w'.shared.start.held = w.shared.start.held)
    (hnet : w'.net = w.net.afterOpenChannel conn) (hconn : next.conn = some conn)
    (hfailed : w'.startFailed = false → w.startFailed = false)
    (hfails : w.net.isClosed conn = true → w.connectedRuns = 0 → w'.startFailed = true) : Leaving w' := by
  have hclosed_eq : ∀ c, w'.net.isClosed c = w.net.isClosed c := by
    intro c
    rw [hnet]
    rfl
  have hconns : w'.net.conns = w.net.conns := by
    rw [hnet]
    rfl
  have hchannels : w'.net.channelOpens = w.net.channelOpens ++ [(conn, w.net.isClosed conn)] := by
    rw [hnet]
    rfl
  refine ⟨hphase, ?_, ?_, ?_, ?_, ?_⟩
  · intro c hc
    rw [hclosed_eq] at hc
    rw [hconns]
    exact h.closed_lt c hc
  · rintro s c hs hc
    obtain rfl := Task.running.inj (htask'.symm.trans hs)
    obtain rfl := Option.some.inj (hconn.symm.trans hc)
    rw [hconns]
    exact h.conn_lt _ _ htask rfl
  · rintro c ⟨hopen, s, hs, hc⟩
    obtain rfl := Task.running.inj (htask'.symm.trans hs)
    obtain rfl := Option.some.inj (hconn.symm.trans (State.conn_of_opensOn hc))
    rw [hheld] at hopen
    rw [hclosed_eq]
    exact h.opens_alive _ ⟨hopen, _, htask, rfl⟩
  · intro hnot c
    cases hclosed : w.net.isClosed conn with
    | false =>
      rw [hchannels, hclosed]
      simpa using h.none_closed (hfailed hnot) c
    | true =>
      obtain ⟨-, hruns⟩ := h.opensChannel htask hclosed
      rw [hfails hclosed hruns] at hnot
      cases hnot
  · intro c
    rw [hchannels, List.count_append]
    cases hclosed : w.net.isClosed conn with
    | false => simpa using h.once c
    | true =>
      obtain ⟨hnot, -⟩ := h.opensChannel htask hclosed
      rw [List.count_eq_zero_of_not_mem (h.none_closed hnot c), Nat.zero_add]
      exact List.count_le_length

theorem Leaving.run {w : World} (h : Leaving w) {state next : State} {shared : Shared} {net : Net}
    (htask : w.task = .running state) {answer : Answer} {branch : Branch}
    (hleaves : w.Leaves (.task answer branch))
    (hran : state.Ran w.shared w.net answer branch next shared net) {w' : World}
    (hphase : w'.Phase) (htask' : w'.task = .running next) (hshared : w'.shared = shared)
    (hnet : w'.net = net) (hfailed : w'.startFailed =
      (w.startFailed || (w.connectedRuns == 0 && state.attemptFails w.net answer))) :
    Leaving w' := by
  subst hshared hnet
  have hfailed' : w'.startFailed = false → w.startFailed = false := by
    rw [hfailed, Bool.or_eq_false_iff]
    exact And.left
  have hclosed_lt := h.closed_lt
  have hconn_lt := h.conn_lt state
  cases hran.connectionStep with
  | opensChannel conn eventRx hstate hshared hnet hconn hopens =>
    subst hstate
    refine h.of_attempt htask hphase htask' (by rw [hshared]) hnet hconn hfailed' fun hclosed hruns => ?_
    rw [hfailed, hruns, State.attemptFails, hclosed]
    simp
  | connects hstate hnet hconn =>
    refine h.of_next hphase htask' (by rw [hnet]) hfailed' ?_ ?_ ?_ <;> rw [hnet]
    · exact fun c hc => Nat.lt_succ_of_lt (hclosed_lt c hc)
    · intro c hc
      obtain rfl := Option.some.inj (hconn.symm.trans hc)
      exact Nat.lt_succ_self _
    · intro c _ hc
      obtain rfl := Option.some.inj (hconn.symm.trans (State.conn_of_opensOn hc))
      -- a new connection is not closed yet
      refine Bool.eq_false_iff.mpr fun hclosed => ?_
      exact absurd (hclosed_lt _ hclosed) (Nat.lt_irrefl _)
  | waited conn eventRx hstate hshared hnet hnext =>
    subst hstate hnext
    refine h.of_next hphase htask' (by rw [hnet]) hfailed' ?_ ?_ ?_ <;> rw [hnet]
    · exact hclosed_lt
    · exact fun c hc => hconn_lt c htask hc
    · intro c hheld hc
      rw [hshared] at hheld
      exact h.opens_alive c ⟨hheld, _, htask, hc⟩
  | reopens conn chan eventRx reason hstate hreason hclose hnet hnext =>
    subst hstate hnext
    refine h.of_next hphase htask' (by rw [hnet]) hfailed' ?_ ?_ ?_ <;> rw [hnet]
    · exact hclosed_lt
    · exact fun c hc => hconn_lt c htask hc
    · intro c _ hc
      obtain rfl := Option.some.inj hc
      refine Bool.eq_false_iff.mpr fun hclosed => ?_
      have hfails := hleaves conn chan eventRx reason htask hreason hclosed
      rw [hclose] at hfails
      cases hfails
  | closes conn reason hstate hnet hconn =>
    subst hstate
    refine h.of_next hphase htask' (by rw [hnet]) hfailed' ?_ ?_ ?_ <;> rw [hnet]
    · rintro c hc
      rcases (Net.isClosed_cons _ _ _).mp hc with rfl | hc
      · exact hconn_lt c htask rfl
      · exact hclosed_lt c hc
    · intro c hc
      rw [hconn] at hc
      cases hc
    · intro c _ hc
      rw [State.conn_of_opensOn hc] at hconn
      cases hconn
  | other hchannels hconns hclosed hopens hconn =>
    refine h.of_next hphase htask' hchannels hfailed' ?_ ?_ ?_
    · unfold Net.isClosed
      rw [hclosed, hconns]
      exact hclosed_lt
    · intro c hc
      rw [hconns]
      rcases hconn with hnone | hsame
      · rw [hnone] at hc
        cases hc
      · exact hconn_lt c htask (hsame.symm.trans hc)
    · intro c _ hc
      rw [hopens] at hc
      cases hc

theorem World.step_net (w : World) {act : Action} (hact : act.isTask = false) :
    (w.step act).net.channelOpens = w.net.channelOpens ∧ (w.step act).net.conns = w.net.conns ∧
      ∀ conn, (w.step act).net.isClosed conn = true ↔ w.net.isClosed conn = true ∨
        (conn.id < w.net.conns ∧ (act = .close conn ∨ act = .callback (.connectionClose conn))) := by
  cases act with
  | start => cases htask : w.task <;> simp [World.step, htask]
  | dropStartRx | shutdown => simp [World.step]
  | send message =>
    unfold World.step
    dsimp only
    split <;> simp
  | close c =>
    unfold World.step
    dsimp only
    split
    · rename_i hlt
      refine ⟨rfl, rfl, fun conn => ?_⟩
      rw [Net.isClosed_cons, or_comm]
      refine or_congr_right ⟨?_, ?_⟩
      · rintro rfl
        exact ⟨hlt, .inl rfl⟩
      · rintro ⟨-, heq | heq⟩
        · exact (Action.close.inj heq).symm
        · cases heq
    · rename_i hlt
      refine ⟨rfl, rfl, fun conn => ⟨.inl, ?_⟩⟩
      rintro (hconn | ⟨hlt', heq | heq⟩)
      · exact hconn
      · exact absurd (Action.close.inj heq ▸ hlt') hlt
      · cases heq
  | callback event =>
    simp only [World.step, World.callback]
    split
    · rename_i hlt
      cases event with
      | connectionClose c =>
        refine ⟨rfl, rfl, fun conn => ?_⟩
        refine (Net.isClosed_cons w.net c conn).trans (or_comm.trans (or_congr_right ⟨?_, ?_⟩))
        · rintro rfl
          exact ⟨hlt, .inr rfl⟩
        · rintro ⟨-, heq | heq⟩
          · cases heq
          · exact (Event.connectionClose.inj (Action.callback.inj heq)).symm
      | _ =>
        split
        · split <;> simp [Net.isClosed]
        · simp [Net.onCallback]
    · rename_i hlt
      refine ⟨rfl, rfl, fun conn => ⟨.inl, ?_⟩⟩
      rintro (hconn | ⟨hlt', heq | heq⟩)
      · exact hconn
      · cases heq
      · exact absurd (by rw [Action.callback.inj heq]; exact hlt') hlt
  | task answer branch => exact absurd hact (by simp [Action.isTask])

theorem World.step_opensOn {w : World} {act : Action} (hact : act.isTask = false) (conn : Connection) :
    (w.step act).OpensOn conn ↔ w.OpensOn conn := by
  obtain ⟨hseen, -, -, htask⟩ := w.step_frame hact
  unfold World.OpensOn
  rw [show (w.step act).shared.start.held = w.shared.start.held from congrArg Seen.held hseen]
  refine and_congr_right fun _ => ?_
  rcases htask with htask | ⟨event, htask⟩ | ⟨⟨started, hwait⟩, htask⟩
  · rw [htask]
  · rw [htask]
    cases w.task with
    | running state => simp [Task.push]
    | _ => simp [Task.push]
  · simp [hwait, htask]

theorem Leaving.of_no_conn {w w' : World} (h : Leaving w) (hphase : w'.Phase) (hnet : w'.net = w.net)
    (hfailed : w'.startFailed = w.startFailed)
    (hconn : ∀ state, w'.task = .running state → state.conn = none) : Leaving w' := by
  refine h.of_channels hphase (by rw [hnet]) (by rw [hfailed]; exact id) ?_ ?_ ?_
  · rw [hnet]
    exact h.closed_lt
  · intro state conn hstate hc
    rw [hconn state hstate] at hc
    cases hc
  · rintro conn ⟨-, state, hstate, hc⟩
    have hnone := hconn state hstate
    rw [State.conn_of_opensOn hc] at hnone
    cases hnone

theorem Leaving.runTask {w : World} (h : Leaving w) {answer : Answer} {branch : Branch}
    (hleaves : w.Leaves (.task answer branch)) : Leaving (w.runTask answer branch) := by
  have hphase := (runTask_phase h.phase answer branch).1
  unfold World.runTask at hphase ⊢
  cases htask : w.task with
  | awaitingStart started =>
    simp only [htask] at hphase ⊢
    cases started with
    | false => exact h
    | true =>
      simp only [if_true] at hphase ⊢
      split
      · rename_i hs
        rw [if_pos hs] at hphase
        exact h.of_no_conn hphase rfl rfl (by simp)
      · rename_i hs
        rw [if_neg hs] at hphase
        exact h.of_no_conn hphase rfl rfl (by simp [State.conn])
  | running state =>
    simp only [htask] at hphase ⊢
    rcases w.runState_cases (h.phase.sound htask) answer branch with
      ⟨reason, rfl, hnext⟩ | ⟨-, next, shared, net, hran, hnext⟩ <;> rw [hnext] at hphase ⊢
    · exact h.of_no_conn hphase rfl rfl (by simp)
    · exact h.run htask hleaves hran hphase rfl rfl rfl rfl
  | returned reason | panicked => exact h

theorem Leaving.step {w : World} (h : Leaving w) {act : Action} (hleaves : w.Leaves act) :
    Leaving (w.step act) := by
  cases hact : act.isTask with
  | true =>
    cases act with
    | task answer branch => exact h.runTask hleaves
    | _ => exact absurd hact (by simp [Action.isTask])
  | false =>
    obtain ⟨hchannels, hconns, hclosed⟩ := w.step_net hact
    obtain ⟨hseen, -, -, htask⟩ := w.step_frame hact
    refine h.of_channels (step_phase h.phase act) hchannels ?_ ?_ ?_ ?_
    · rw [show (w.step act).startFailed = w.startFailed from congrArg Seen.startFailed hseen]
      exact id
    · intro conn hconn
      rw [hconns]
      rcases (hclosed conn).mp hconn with hold | ⟨hlt, -⟩
      · exact h.closed_lt conn hold
      · exact hlt
    · intro state conn hstate hc
      rw [hconns]
      rcases htask with htask | ⟨event, htask⟩ | ⟨-, htask⟩ <;> rw [htask] at hstate
      · exact h.conn_lt state conn hstate hc
      · cases hold : w.task with
        | running old =>
          rw [hold] at hstate
          obtain rfl := Task.running.inj hstate
          rw [State.conn_push] at hc
          exact h.conn_lt old conn hold hc
        | _ =>
          rw [hold] at hstate
          cases hstate
      · cases hstate
    · intro conn hopens
      rw [World.step_opensOn hact] at hopens
      refine Bool.eq_false_iff.mpr fun hconn => ?_
      rcases (hclosed conn).mp hconn with hold | ⟨hlt, rfl | rfl⟩
      · rw [h.opens_alive conn hopens] at hold
        cases hold
      · exact hleaves hlt hopens
      · exact hleaves hlt hopens

/-! ### The cycle on a closed connection -/

/-- The task opens channels on a closed connection. -/
def World.Stuck (conn : Connection) (w : World) : Prop :=
  w.OpensOn conn ∧ w.net.isClosed conn = true

/-- Steps of the task that are missing until two attempts on a closed connection have been made. -/
def World.attemptRank (conn : Connection) (w : World) : Nat :=
  2 * (2 - w.net.channelOpens.count (conn, true)) -
    match w.task with
    | .running (.openingChannel _ _) => 1
    | _ => 0

theorem Stuck.runTask {conn : Connection} {w : World} (h : w.Stuck conn) (answer : Answer)
    (branch : Branch) :
    (w.runTask answer branch).Stuck conn ∧
      (w.runTask answer branch).attemptRank conn ≤ w.attemptRank conn - 1 := by
  obtain ⟨⟨hheld, state, htask, hopens⟩, hclosed⟩ := h
  cases state with
  | openingChannel c eventRx =>
    obtain rfl := Option.some.inj hopens
    rcases OpeningChannel.run_cases c eventRx w.shared w.net answer with
      ⟨-, err, h⟩ | ⟨hopen, -⟩ | ⟨hopen, -⟩
    · have hnext : w.runTask answer branch = { w with
          task := .running (.reopeningChannel c eventRx)
          net := w.net.afterOpenChannel c
          startFailed := (w.runTask answer branch).startFailed } := by
        simp [World.runTask, htask, World.runState, State.run, h, hheld, State.entersConnected]
      have hcount : (w.net.afterOpenChannel c).channelOpens.count (c, true) =
          w.net.channelOpens.count (c, true) + 1 := by
        simp [Net.afterOpenChannel, hclosed, List.count_append]
      rw [hnext]
      refine ⟨⟨⟨hheld, _, rfl, rfl⟩, hclosed⟩, ?_⟩
      simp only [World.attemptRank, htask, hcount]
      omega
    · simp [hclosed] at hopen
    · simp [hclosed] at hopen
  | reopeningChannel c eventRx =>
    obtain rfl := Option.some.inj hopens
    have hnext : w.runTask answer branch = { w with
        task := .running (.openingChannel c eventRx)
        startFailed := (w.runTask answer branch).startFailed } := by
      simp [World.runTask, htask, World.runState, State.run, ReopeningChannel.run,
        State.entersConnected]
    rw [hnext]
    refine ⟨⟨⟨hheld, _, rfl, rfl⟩, hclosed⟩, ?_⟩
    simp only [World.attemptRank, htask]
    omega
  | _ => cases hopens

theorem attemptRank_of_not_task {conn : Connection} (w : World) {act : Action}
    (hact : act.isTask = false) : (w.step act).attemptRank conn = w.attemptRank conn := by
  unfold World.attemptRank
  rw [(w.step_net hact).1]
  rcases (w.step_frame hact).2.2.2 with htask | ⟨event, htask⟩ | ⟨⟨started, hwait⟩, htask⟩
  · rw [htask]
  · rw [htask]
    cases w.task with
    | running state => cases state <;> rfl
    | _ => rfl
  · rw [htask, hwait]

/-- The task never leaves the cycle, whatever happens and whatever its calls return. -/
theorem Stuck.step {conn : Connection} {w : World} (h : w.Stuck conn) (act : Action) :
    (w.step act).Stuck conn ∧
      (w.step act).attemptRank conn ≤ w.attemptRank conn - if act.isTask then 1 else 0 := by
  cases hact : act.isTask with
  | true =>
    cases act with
    | task answer branch => exact Stuck.runTask h answer branch
    | _ => exact absurd hact (by simp [Action.isTask])
  | false =>
    refine ⟨⟨(World.step_opensOn hact conn).mpr h.1, ?_⟩, (attemptRank_of_not_task w hact).le⟩
    exact ((w.step_net hact).2.2 conn).mpr (.inl h.2)

theorem Stuck.opens_twice {conn : Connection} {w : World} (h : w.Stuck conn) (acts : List Action)
    (hacts : 4 ≤ acts.countP Action.isTask) :
    1 < (w.run acts).net.channelOpens.count (conn, true) := by
  have hrank : (w.run acts).attemptRank conn ≤ w.attemptRank conn - acts.countP Action.isTask :=
    rank_foldl_le (World.Stuck conn) Action.isTask (World.attemptRank conn)
      (fun _ act h _ => (Stuck.step h act).1) (fun _ act h _ => (Stuck.step h act).2)
      (AllSteps.of_forall (fun _ _ => trivial) w acts) h
  have hbound : w.attemptRank conn ≤ 4 := by
    unfold World.attemptRank
    omega
  have hzero : (w.run acts).attemptRank conn = 0 := by omega
  unfold World.attemptRank at hzero
  split at hzero <;> omega

/-- A step that does not leave a closed connection enters the cycle. -/
theorem stuck_of_not_leaves {w : World} (hphase : w.Phase) {act : Action} (h : ¬ w.Leaves act) :
    ∃ conn, (w.step act).Stuck conn := by
  cases act with
  | close conn =>
    obtain ⟨hlt, hopens⟩ : conn.id < w.net.conns ∧ w.OpensOn conn := by
      simpa [World.Leaves] using h
    refine ⟨conn, (World.step_opensOn rfl conn).mpr hopens, ?_⟩
    exact ((w.step_net rfl).2.2 conn).mpr (.inr ⟨hlt, .inl rfl⟩)
  | callback event =>
    cases event with
    | connectionClose conn =>
      obtain ⟨hlt, hopens⟩ : conn.id < w.net.conns ∧ w.OpensOn conn := by
        simpa [World.Leaves] using h
      refine ⟨conn, (World.step_opensOn rfl conn).mpr hopens, ?_⟩
      exact ((w.step_net rfl).2.2 conn).mpr (.inr ⟨hlt, .inr rfl⟩)
    | _ => exact absurd trivial h
  | task answer branch =>
    obtain ⟨conn, chan, eventRx, reason, htask, hreason, hclosed, hclose⟩ :
        ∃ conn chan eventRx reason, w.task = .running (.closingChannel conn chan eventRx reason) ∧
          reason.reopens = true ∧ w.net.isClosed conn = true ∧
          answer.fails .closeChannel = false := by
      simpa [World.Leaves] using h
    -- a reason that reopens is carried after the start only
    have hheld : w.shared.start.held = false := by
      cases hphase with
      | started n _ hseen => exact congrArg Seen.held hseen
      | reporting err hshape _ =>
        rw [htask] at hshape
        rw [hshape.2] at hreason
        cases hreason
      | starting hshape _ | failed _ hshape _ =>
        rw [htask] at hshape
        exact absurd hshape id
    obtain ⟨chan, rfl⟩ := Option.isSome_iff_exists.mp (hphase.sound htask)
    have hnext : (w.step (.task answer branch)).task = .running (.reopeningChannel conn eventRx) ∧
        (w.step (.task answer branch)).shared = w.shared ∧
        (w.step (.task answer branch)).net = w.net := by
      simp [World.step, World.runTask, htask, World.runState, State.run, ClosingChannel.run_some, hreason, hclose]
    obtain ⟨htask', hshared, hnet⟩ := hnext
    exact ⟨conn, ⟨by rw [hshared]; exact hheld, _, htask', rfl⟩, by rw [hnet]; exact hclosed⟩
  | _ => exact absurd trivial h

/-- A run attempts to open a channel at most once on a connection that is closed if it leaves closed
connections; and if it once does not leave one, it attempts it twice after four more steps of the
task. -/
theorem open_channel_on_closed_iff (queueName : String) (recvTx : Option (Unbounded Bytes))
    (acts : List Action) :
    (AllSteps World.step World.Leaves (World.new queueName recvTx) acts →
      ((World.new queueName recvTx).run acts).OpensOnceOnClosed) ∧
    (¬ AllSteps World.step World.Leaves (World.new queueName recvTx) acts →
      ∀ later : List Action, 4 ≤ later.countP Action.isTask →
        ¬ ((World.new queueName recvTx).run (acts ++ later)).OpensOnceOnClosed) := by
  constructor
  · intro hleaves
    have hrun := foldl_of_allSteps Leaving (fun _ _ h hleaves => h.step hleaves) hleaves
      (leaving_new queueName recvTx)
    exact hrun.once
  · intro hnot later hlater honce
    obtain ⟨pre, act, post, rfl, hact⟩ := exists_of_not_allSteps hnot
    obtain ⟨conn, hstuck⟩ :=
      stuck_of_not_leaves (run_phase (phase_new queueName recvTx) pre) hact
    have htwice := Stuck.opens_twice hstuck (post ++ later) (by rw [List.countP_append]; omega)
    refine absurd (honce conn) (Nat.not_le_of_lt ?_)
    have hrun : (World.new queueName recvTx).run (pre ++ act :: post ++ later) =
        ((((World.new queueName recvTx).run pre).step act).run (post ++ later)) := by
      simp [World.run]
    rw [hrun]
    exact htwice

/-- The channel is closed, and the connection is closed before there is a new one. -/
def closesBetweenChannels : List Action :=
  connects ++ [.callback (.channelClose ⟨⟨0⟩, 0⟩), .task .ok .event, .task .ok .event,
    .callback (.connectionClose ⟨0⟩)]

/-- Six more steps make three attempts on the closed connection, and so on. -/
theorem closed_connection_is_retried :
    let w := (World.new "discord" none).run
      (closesBetweenChannels ++ List.replicate 6 (.task .ok .event))
    w.shared.start.sent = [none] ∧ w.net.opens = 1 ∧ ¬ w.OpensOnceOnClosed :=
  ⟨by decide, by decide, fun h => absurd (h ⟨0⟩) (by decide)⟩

end Tulpje.Amqp
