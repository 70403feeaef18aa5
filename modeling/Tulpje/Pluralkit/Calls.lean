import Tulpje.Pluralkit.Fronters

/-!
# Which calls a function may make

Two calls matter to others: the one that updates the channels of a category, and the one that tells a guild of a switch.
Most functions make neither (`Common`), and each of the lemmas says of one function which it may make.
-/

namespace Tulpje.Pluralkit

open Lib

/-- No channels are updated, and nobody is told of a switch. -/
def Call.Common : Call → Prop
  | .updateFronterChannels .. | .notifying _ _ (.switch _) => False
  | _ => True

/-- Whether or not it fails. -/
def Only {ε α : Type} (P : Call → Prop) (p : TaskM ε α) : Prop := p.All P fun _ => True

section Rules
variable {ε ε' α β : Type} {P : Call → Prop} {p : TaskM ε α}

theorem Only.send {o : Call} {f : o.Reply → TaskM ε β} (ho : P o) (hf : ∀ r, Only P (f r)) :
    Only P (Pluralkit.send o >>= f) := ⟨ho, hf⟩

theorem Only.ofExcept (x : Except ε α) : Only P (Prog.ofExcept x : TaskM ε α) := Prog.All.ofExcept x

theorem Only.bind {f : α → TaskM ε β} (hp : Only P p) (hf : ∀ a, Only P (f a)) : Only P (p >>= f) :=
  Prog.All.bind hp hf

theorem Only.attempt (hp : Only P p) : Only P (p.attempt : TaskM ε' (Except ε α)) := Prog.All.attempt hp

theorem Only.mapError {g : ε → ε'} (hp : Only P p) : Only P (p.mapError g) := Prog.All.mapError hp

theorem Only.sql {statement : Statement} (h : P (.sql statement)) : Only P (Pluralkit.sql statement) :=
  Only.send h fun _ => .ofExcept _

end Rules

section Functions
variable {P : Call → Prop} (hP : ∀ o : Call, o.Common → P o)

include hP

theorem only_updateFrontersTimestamp (system : Uuid) :
    Only P (updateFrontersTimestamp system) := (Only.sql (hP _ trivial)).mapError

theorem only_updateFronters (system : Uuid) (fronters : List Uuid) :
    Only P (updateFronters system fronters) := Only.send (hP _ trivial) fun _ => .sql (hP _ trivial)

theorem only_getSystemFronters (system : Uuid) :
    Only P (getSystemFronters system) := by
  refine Only.send (hP _ trivial) fun reply => ?_
  split
  · trivial
  · trivial
  · trivial
  · trivial
  · refine (Only.ofExcept _).bind fun members => Only.send (hP _ trivial) fun timestamp => ?_
    cases timestamp <;> trivial

theorem only_frontersOfReply (reply : Except GetSystemFrontersError (Option Fronters)) :
    Only P (frontersOfReply reply) := by
  rcases reply with (system | system | err) | fronters
  · exact (only_updateFrontersTimestamp hP system).mapError.bind fun _ => trivial
  · exact (only_updateFrontersTimestamp hP system).mapError.bind fun _ => trivial
  · trivial
  · trivial

theorem only_didFrontersChange (system : Uuid) (fronters : List Uuid) :
    Only P (didFrontersChange system fronters) := by
  refine (Only.sql (hP _ trivial)).bind fun savedFront => ?_
  cases savedFront <;> trivial

theorem only_frontChanged (fronters : Option Fronters) :
    Only P (frontChanged fronters) := by
  refine Only.bind ?_ fun _ => trivial
  cases fronters with
  | none => exact Prog.All.send (hP _ trivial)
  | some fronters => trivial

theorem only_recordFronters (system : ModPkSystem) (fronters : Option Fronters) :
    Only P (recordFronters system fronters) := by
  refine (only_didFrontersChange hP ..).mapError.bind fun changed => ?_
  cases changed with
  | true => exact (only_updateFronters hP ..).mapError.bind fun _ => only_frontChanged hP fronters
  | false => exact (only_updateFrontersTimestamp hP ..).mapError.bind fun _ => trivial

theorem only_updateSystemFronters (system : ModPkSystem) :
    Only P (updateSystemFronters system) :=
  (only_getSystemFronters hP system.uuid).attempt.bind fun reply =>
    (only_frontersOfReply hP reply).bind fun fronters => only_recordFronters hP system fronters

theorem only_updateFrontersForGuild
    (hupdate : ∀ guildId category members, P (.updateFronterChannels guildId category members)) (guildId : GuildId)
    (categoryId : ChannelId) (members : List Member) : Only P (updateFrontersForGuild guildId categoryId members) := by
  refine Only.send (hP _ trivial) fun guild => (Only.ofExcept _).bind fun guild => ?_
  refine Only.send (hP _ trivial) fun reply => ?_
  cases reply with
  | unknown => exact (Only.sql (hP _ trivial)).mapError
  | error err => trivial
  | ok response =>
    refine (Only.ofExcept response).bind fun category => ?_
    split
    · trivial
    · exact (Only.send (hupdate ..) fun _ => .ofExcept _).mapError

theorem only_updateFronterCategories
    (hupdate : ∀ guildId category members, P (.updateFronterChannels guildId category members)) (system : ModPkSystem)
    (switch : Switch) : Only P (updateFronterCategories system switch) := by
  refine (Only.sql (hP _ trivial)).mapError.bind fun categories => Prog.All.forM fun category _ => ?_
  exact (only_updateFrontersForGuild hP hupdate ..).attempt.bind fun _ => trivial

theorem only_createFrontChangeEmbed (system : ModPkSystem) (switch : Switch) :
    Only P (createFrontChangeEmbed system switch) := by
  refine Only.bind ?_ fun thumbnail => Only.send (hP _ trivial) fun _ => (Only.ofExcept _).bind fun _ => trivial
  cases system.avatar with
  | none => trivial
  | some url =>
    refine Only.send (hP _ trivial) fun source => ?_
    cases source <;> trivial

theorem only_notifyGuild (guildId : GuildId) (notification : GuildNotification) :
    Only P (notifyGuild guildId notification) := by
  refine (Only.sql (hP _ trivial)).bind fun channel => ?_
  cases channel with
  | none => trivial
  | some channelId =>
    refine Only.send (hP _ trivial) fun message => ?_
    cases message with
    | ok _ => trivial
    | error err => trivial
    | unknown => exact (Only.sql (hP _ trivial)).mapError.bind fun _ => (Only.sql (hP _ trivial)).mapError

theorem only_notifyGuildsForSystem {notification : GuildNotification}
    (hnotify : ∀ guildId system, P (.notifying guildId system notification)) (system : ModPkSystem) :
    Only P (notifyGuildsForSystem system notification) := by
  refine (Only.sql (hP _ trivial)).bind fun guilds => ?_
  induction guilds with
  | nil => trivial
  | cons guildId guilds ih =>
    refine Only.send (hnotify ..) fun _ => (only_notifyGuild hP guildId notification).attempt.bind fun _ => ?_
    exact ih.bind fun _ => trivial

theorem only_notifySystemNotFound (system : ModPkSystem) : Only P (notifySystemNotFound system) := by
  refine Only.bind (only_notifyGuildsForSystem hP ?_ system) fun _ => .sql (hP _ trivial)
  exact fun _ _ => hP _ trivial

theorem only_notifyFrontPrivate (system : ModPkSystem) : Only P (notifyFrontPrivate system) := by
  refine Only.bind (only_notifyGuildsForSystem hP ?_ system) fun _ => .sql (hP _ trivial)
  exact fun _ _ => hP _ trivial

theorem only_updateSystem (system : ModPkSystem) : Only P (updateSystem system) := by
  refine Only.send (hP _ trivial) fun reply => ?_
  cases reply with
  | error err => trivial
  | ok system =>
    exact Only.send (hP _ trivial) fun _ => Only.send (hP _ trivial) fun _ => .sql (hP _ trivial)

end Functions

end Tulpje.Pluralkit
