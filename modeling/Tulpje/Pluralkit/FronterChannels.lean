import Mathlib.Data.Finset.Sort
import Mathlib.Data.String.Basic
import Tulpje.Framework.Module
import Tulpje.Lib.Hoare
import Tulpje.Lib.Lists
import Tulpje.Lib.Numbered
import Tulpje.Pluralkit.Fronters

/-!
# The channels of the fronters

`update_fronter_channels` of `fronters/shared.rs`, call by call, against a Discord that does what it is asked for.
Three loops delete, create and move channels; each goes over a hash set or hash map, which may give its elements
in any order (`Order`).

The maps of the function are keyed by names, so it sees one channel of each name. It makes the category what it
should be exactly when the names in it are distinct: `update_fronter_channels_converges_iff`.
-/

namespace Tulpje.Pluralkit.FronterChannels

open Framework (HashMap)
open Lib

/-! ### Discord -/

inductive ChannelType
  | guildVoice
  | other (code : UInt8)
  deriving DecidableEq

/-- The fields of a channel that are looked at. -/
structure Channel where
  id : ChannelId
  kind : ChannelType
  name : Option String
  parentId : Option ChannelId
  position : Option Int
  deriving DecidableEq

inductive Call
  | guildChannels (guildId : GuildId)
  | deleteChannel (channelId : ChannelId)
  | createGuildChannel (guildId : GuildId) (name : String) (position : UInt64) (parentId : ChannelId)
    (kind : ChannelType)
  | updateChannel (channelId : ChannelId) (position : UInt64)

/-- An answer that may still be unreadable has two layers. -/
@[reducible] def Call.Reply : Call → Type
  | guildChannels _ => Except Error (Except Error (List Channel))
  | createGuildChannel .. => Except Error (Except Error Channel)
  | deleteChannel _ | updateChannel .. => Except Error Unit

/-- The channels of the guild. -/
abbrev Discord := Numbered Channel.id

def Channel.moveTo (position : UInt64) (self : Channel) : Channel :=
  { self with position := some position.toNat }

/-- Every call succeeds as long as there are ids for new channels. -/
def eval : (o : Call) → Discord → o.Reply × Discord
  | .guildChannels _, s => (.ok (.ok s.items), s)
  | .deleteChannel channelId, s => (.ok (), s.delete channelId)
  | .createGuildChannel _ name position parentId kind, s =>
    match s.create (fun id => ⟨id, kind, some name, some parentId, some position.toNat⟩) fun _ => rfl with
    | none => (.error "no id for a new channel", s)
    | some (channel, t) => (.ok (.ok channel), t)
  | .updateChannel channelId position, s => (.ok (), s.modify channelId (Channel.moveTo position) fun _ => rfl)

/-! ### `fronters/shared.rs` -/

inductive Failure
  | error (err : Error)
  | panic (message : String)

abbrev DiscordM := Prog Failure Call Call.Reply

def send (o : Call) : DiscordM o.Reply := Prog.send o

/-- The order in which a hash set gives its elements. -/
structure Order where
  list : Finset String → List String
  nodup : ∀ set, (list set).Nodup
  mem_list : ∀ {set name}, name ∈ list set ↔ name ∈ set

/-- The entries of a hash map whose keys come in this order. -/
def Order.entries {V : Type} (order : Order) (map : HashMap String V) : List (String × V) :=
  (order.list map.keys).filterMap fun name => (map.lookup name).map fun value => (name, value)

/-- Each hash set and hash map has an order of its own. -/
structure Orders where
  currentFronters : Order
  desiredFrontersSet : Order
  fronterPosMap : Order

def getFronterChannels (guild : GuildId) (catId : ChannelId) : DiscordM (List Channel) := do
  match ← send (.guildChannels guild) with
  | .error err => Prog.throw (.error s!"error fetching channels for {guild}: {err}")
  | .ok (.error err) => Prog.throw (.error s!"error deserialising channels for {guild}: {err}")
  | .ok (.ok channels) => pure (channels.filter (·.parentId = some catId))

/-- The index as a `u16`; `none` is a panic of `unwrap`. -/
def tryIntoU16 (index : Nat) : Option UInt16 :=
  if index < UInt16.size then some (UInt16.ofNat index) else none

def fronterPosMap (desiredFronters : List String) : Option (HashMap String UInt16) :=
  (desiredFronters.zipIdx.mapM fun entry => (tryIntoU16 entry.2).map fun pos => (entry.1, pos)).map
    HashMap.collect

/-- The loop that deletes old channels. -/
def deleteOld (guild : GuildId) : List String → HashMap String Channel → DiscordM (HashMap String Channel)
  | [], fronterChannelMap => pure fronterChannelMap
  | fronter :: rest, fronterChannelMap => do
    match fronterChannelMap.lookup fronter with
    | none => Prog.throw (.panic "no entry found for key")
    | some channel =>
    match ← send (.deleteChannel channel.id) with
    | .error err =>
      Prog.throw (.error s!"error deleting fronter channel {channel.id} in guild {guild}: {err}")
    | .ok () => deleteOld guild rest (fronterChannelMap.erase fronter)

/-- The loop that creates new channels. -/
def createNew (guild : GuildId) (catId : ChannelId) (posMap : HashMap String UInt16) :
    List String → HashMap String Channel → DiscordM (HashMap String Channel)
  | [], fronterChannelMap => pure fronterChannelMap
  | fronter :: rest, fronterChannelMap => do
    match posMap.lookup fronter with
    | none => Prog.throw (.panic "couldn't get position for fronter, this should never happen!")
    | some pos =>
    match ← send (.createGuildChannel guild fronter (UInt64.ofNat pos.toNat) catId .guildVoice) with
    | .error err => Prog.throw (.error
        s!"error creating fronter channel for member {fronter} in guild {guild}: {err}")
    | .ok (.error err) => Prog.throw (.error
        s!"error deserialising new fronter channel for member {fronter} in guild {guild}: {err}")
    | .ok (.ok channel) => createNew guild catId posMap rest (fronterChannelMap.insert fronter channel)

/-- The loop that updates the positions. -/
def updatePositions (guild : GuildId) (fronterChannelMap : HashMap String Channel) :
    List (String × UInt16) → DiscordM Unit
  | [] => pure ()
  | (name, position) :: rest => do
    match fronterChannelMap.lookup name with
    | none => Prog.throw (.panic
        "couldn't get channel from fronter_channel_map, this should never happen!")
    | some channel =>
    if channel.position = some (position.toNat : Int) then
      updatePositions guild fronterChannelMap rest
    else
      match ← send (.updateChannel channel.id (UInt64.ofNat position.toNat)) with
      | .error err =>
        Prog.throw (.error s!"error moving fronter channel {channel.id} in guild {guild}: {err}")
      | .ok () => updatePositions guild fronterChannelMap rest

def updateFronterChannels (orders : Orders) (guild : GuildId) (catId : ChannelId) (members : List Member) :
    DiscordM Unit := do
  let fronterChannels ← getFronterChannels guild catId
  let desiredFronters := members.map getMemberName
  match fronterChannels.mapM (·.name) with
  | none => Prog.throw (.panic "guild channels have names")
  | some names =>
  let currentFronters := names.toFinset
  let fronterChannelMap := HashMap.collect (names.zip fronterChannels)
  match fronterPosMap desiredFronters with
  | none => Prog.throw (.panic "called `Result::unwrap()` on an `Err` value: TryFromIntError(())")
  | some posMap =>
  let desiredFrontersSet := desiredFronters.toFinset
  let deleteFronters := (orders.currentFronters.list currentFronters).filter (· ∉ desiredFrontersSet)
  let createFronters := (orders.desiredFrontersSet.list desiredFrontersSet).filter (· ∉ currentFronters)
  let fronterChannelMap ← deleteOld guild deleteFronters fronterChannelMap
  let fronterChannelMap ← createNew guild catId posMap createFronters fronterChannelMap
  updatePositions guild fronterChannelMap (orders.fronterPosMap.entries posMap)

/-! ### What is in the category -/

/-- The channels under the category. -/
def under (catId : ChannelId) (channels : List Channel) : List Channel :=
  channels.filter (·.parentId = some catId)

def names (catId : ChannelId) (s : Discord) : List (Option String) := (under catId s.items).map (·.name)

/-- One channel for each distinct fronter, no other one, each at an index at which its fronter occurs. -/
structure Converged (catId : ChannelId) (desired : List String) (s : Discord) : Prop where
  names : (names catId s).Perm (desired.dedup.map some)
  position : ∀ c ∈ under catId s.items, ∃ (index : Nat) (name : String),
    c.name = some name ∧ desired[index]? = some name ∧ c.position = some index

section Steps
variable {catId : ChannelId} {s t : Discord} {c : Channel} {name : String}

theorem mem_under {channels : List Channel} :
    c ∈ under catId channels ↔ c ∈ channels ∧ c.parentId = some catId := by
  simp [under]

theorem names_delete (h : c ∈ s.items) (hparent : c.parentId = some catId) (hname : c.name = some name) :
    (names catId s).Perm (some name :: names catId (s.delete c.id)) := by
  have hunder := (Numbered.perm_delete h).filter fun c => c.parentId = some catId
  rw [List.filter_cons_of_pos (by simpa using hparent)] at hunder
  have hnames := hunder.map (·.name)
  rw [List.map_cons, hname] at hnames
  exact hnames

theorem names_append (h : t.items = s.items ++ [c]) (hparent : c.parentId = some catId) :
    names catId t = names catId s ++ [c.name] := by
  simp [names, under, h, hparent]

end Steps

/-! ### The loops -/

/-- The map has channels of the category under their names. -/
def Tracks (catId : ChannelId) (map : HashMap String Channel) (s : Discord) : Prop :=
  ∀ name c, map.lookup name = some c → c ∈ s.items ∧ c.name = some name ∧ c.parentId = some catId

section Loops
variable {catId : ChannelId} (guild : GuildId)

/-- What the first loop deletes is gone from the map and from the category. -/
theorem exec_deleteOld {fronters : List String} (hnodup : fronters.Nodup) {map : HashMap String Channel}
    {s : Discord} (hmap : Tracks catId map s) (hmem : ∀ name ∈ fronters, name ∈ map) :
    ∃ map' t, (deleteOld guild fronters map).exec eval s = (.ok map', t) ∧ Tracks catId map' t ∧
      (∀ name, name ∈ map' ↔ name ∈ map ∧ name ∉ fronters) ∧
      (names catId s).Perm (fronters.map some ++ names catId t) ∧ t.newIds = s.newIds := by
  induction fronters generalizing map s with
  | nil => exact ⟨map, s, rfl, hmap, by simp, List.Perm.refl _, rfl⟩
  | cons fronter fronters ih =>
    obtain ⟨hnew, hrest⟩ := List.nodup_cons.mp hnodup
    obtain ⟨c, hc⟩ := Finmap.mem_iff.mp (hmem fronter List.mem_cons_self)
    obtain ⟨hchannel, hname, hparent⟩ := hmap fronter c hc
    have hmap' : Tracks catId (map.erase fronter) (s.delete c.id) := by
      intro name c' hc'
      obtain ⟨hne, hkept⟩ := HashMap.lookup_erase_eq_some_iff.mp hc'
      obtain ⟨hchannel', hname', hparent'⟩ := hmap name c' hkept
      refine ⟨Numbered.mem_delete.mpr ⟨hchannel', fun hid => ?_⟩, hname', hparent'⟩
      rw [Numbered.eq_of_id hchannel' hchannel hid, hname] at hname'
      exact hne (Option.some.inj hname').symm
    have hmem' : ∀ name ∈ fronters, name ∈ map.erase fronter := by
      intro name hname'
      rw [Finmap.mem_erase]
      exact ⟨fun heq => hnew (heq ▸ hname'), hmem name (List.mem_cons_of_mem _ hname')⟩
    obtain ⟨map', t, hexec, htracks, hkeys, hnames, hids⟩ := ih hrest hmap' hmem'
    refine ⟨map', t, ?_, htracks, fun name => ?_, ?_, hids⟩
    · unfold deleteOld
      rw [hc]
      exact (Prog.exec_bind_ok (Prog.exec_send eval _ s) _).trans hexec
    · rw [hkeys name, Finmap.mem_erase, List.mem_cons, not_or]
      tauto
    · exact (names_delete hchannel hparent hname).trans (hnames.cons _)

/-- What the second loop creates is in the map and in the category. -/
theorem exec_createNew {fronters : List String} {posMap : HashMap String UInt16}
    (hpos : ∀ name ∈ fronters, name ∈ posMap) {map : HashMap String Channel} {s : Discord}
    (hmap : Tracks catId map s) (hids : fronters.length ≤ s.newIds.length) :
    ∃ map' t, (createNew guild catId posMap fronters map).exec eval s = (.ok map', t) ∧ Tracks catId map' t ∧
      (∀ name, name ∈ map' ↔ name ∈ map ∨ name ∈ fronters) ∧
      names catId t = names catId s ++ fronters.map some := by
  induction fronters generalizing map s with
  | nil => exact ⟨map, s, rfl, hmap, by simp, by simp⟩
  | cons fronter fronters ih =>
    obtain ⟨pos, hlookup⟩ := Finmap.mem_iff.mp (hpos fronter List.mem_cons_self)
    rw [List.length_cons] at hids
    obtain ⟨id, s', hcreate, hitems, -, hnew⟩ := Numbered.exists_create (s := s)
      (fun id => ⟨id, .guildVoice, some fronter, some catId, some (UInt64.ofNat pos.toNat).toNat⟩)
      (fun _ => rfl) (by omega)
    set channel : Channel := ⟨id, .guildVoice, some fronter, some catId, some (UInt64.ofNat pos.toNat).toNat⟩
    have hmap' : Tracks catId (map.insert fronter channel) s' := by
      intro name c hc
      rw [hitems]
      rcases HashMap.lookup_insert_eq_some_iff.mp hc with ⟨rfl, rfl⟩ | ⟨-, hkept⟩
      · exact ⟨List.mem_append_right _ (List.mem_singleton_self _), rfl, rfl⟩
      · obtain ⟨hchannel, hrest⟩ := hmap name c hkept
        exact ⟨List.mem_append_left _ hchannel, hrest⟩
    have hids' : fronters.length ≤ s'.newIds.length := by
      rw [hnew, List.length_cons] at hids
      exact Nat.le_of_succ_le_succ hids
    obtain ⟨map', t, hexec, htracks, hkeys, hnames⟩ :=
      ih (fun name h => hpos name (List.mem_cons_of_mem _ h)) hmap' hids'
    refine ⟨map', t, ?_, htracks, fun name => ?_, ?_⟩
    · unfold createNew
      rw [hlookup]
      refine (Prog.exec_bind_ok (Prog.exec_send eval _ s) _).trans ?_
      dsimp only [eval]
      rw [hcreate]
      exact hexec
    · rw [hkeys name, Finmap.mem_insert, List.mem_cons]
      tauto
    · rw [hnames, names_append hitems rfl, List.append_assoc]
      rfl

/-- Where a channel is and what it is called. -/
def Channel.place (self : Channel) : ChannelId × Option String × Option ChannelId :=
  (self.id, self.name, self.parentId)

/-- From `s` to `t` some channels have been moved: those of the entries to their positions, the others not. -/
structure Moved (map : HashMap String Channel) (entries : List (String × UInt16)) (s t : Discord) : Prop where
  place : t.items.map (·.place) = s.items.map (·.place)
  position : ∀ entry ∈ entries, ∀ c, map.lookup entry.1 = some c →
    ∃ c' ∈ t.items, c'.id = c.id ∧ c'.position = some (entry.2.toNat : Int)
  others : ∀ c ∈ s.items, (∀ entry ∈ entries, ∀ c', map.lookup entry.1 = some c' → c'.id ≠ c.id) →
    c ∈ t.items

/-- Of each entry the map has a channel that is still as it was. -/
def UpToDate (map : HashMap String Channel) (entries : List (String × UInt16)) (s : Discord) : Prop :=
  ∀ entry ∈ entries, ∃ c, map.lookup entry.1 = some c ∧ c ∈ s.items ∧ c.name = some entry.1

/-- A channel is at its place in `s'`, and the rest of the entries are about other ones. -/
theorem Moved.cons {map : HashMap String Channel} {entries : List (String × UInt16)} {name : String}
    {position : UInt16} {c c₁ : Channel} {s s' t : Discord} (hc : map.lookup name = some c)
    (hother : ∀ entry ∈ entries, ∀ c', map.lookup entry.1 = some c' → c'.id ≠ c.id)
    (hplace : s'.items.map (·.place) = s.items.map (·.place)) (hc₁ : c₁ ∈ s'.items) (hid : c₁.id = c.id)
    (hposition : c₁.position = some (position.toNat : Int)) (hkept : ∀ c' ∈ s.items, c'.id ≠ c.id → c' ∈ s'.items)
    (h : Moved map entries s' t) : Moved map ((name, position) :: entries) s t where
  place := h.place.trans hplace
  position := by
    refine List.forall_mem_cons.mpr ⟨fun c' hc' => ?_, h.position⟩
    obtain rfl : c = c' := Option.some.inj (hc.symm.trans hc')
    exact ⟨c₁, h.others c₁ hc₁ (hid ▸ hother), hid, hposition⟩
  others c' hc' hids := by
    have hne : c'.id ≠ c.id := (hids (name, position) List.mem_cons_self c hc).symm
    exact h.others c' (hkept c' hc' hne) fun entry hentry => hids entry (List.mem_cons_of_mem _ hentry)

theorem position_moveTo (c : Channel) (position : UInt16) :
    (c.moveTo (UInt64.ofNat position.toNat)).position = some (position.toNat : Int) := by
  have hlt := position.toNat_lt
  have hsize : position.toNat < UInt64.size := by
    unfold UInt64.size
    omega
  rw [Channel.moveTo, UInt64.toNat_ofNat_of_lt' hsize]

theorem exec_updatePositions {entries : List (String × UInt16)} (hnodup : (entries.map Prod.fst).Nodup)
    {map : HashMap String Channel} {s : Discord} (hmap : UpToDate map entries s) :
    ∃ t, (updatePositions guild map entries).exec eval s = (.ok (), t) ∧ Moved map entries s t := by
  induction entries generalizing s with
  | nil => exact ⟨s, rfl, rfl, by simp, fun c h _ => h⟩
  | cons entry entries ih =>
    obtain ⟨name, position⟩ := entry
    rw [List.map_cons, List.nodup_cons] at hnodup
    obtain ⟨hnew, hrest⟩ := hnodup
    obtain ⟨⟨c, hc, hchannel, hname⟩, hmap⟩ := List.forall_mem_cons.mp hmap
    -- the channels of the other entries have other names, so other ids
    have hother : ∀ entry ∈ entries, ∀ c', map.lookup entry.1 = some c' → c'.id ≠ c.id := by
      intro entry hentry c' hc' hid
      obtain ⟨c'', hc'', hchannel', hname'⟩ := hmap entry hentry
      obtain rfl : c' = c'' := Option.some.inj (hc'.symm.trans hc'')
      rw [Numbered.eq_of_id hchannel' hchannel hid, hname] at hname'
      exact hnew (List.mem_map.mpr ⟨entry, hentry, (Option.some.inj hname').symm⟩)
    unfold updatePositions
    rw [hc]
    dsimp only
    by_cases hthere : c.position = some (position.toNat : Int)
    · obtain ⟨t, hexec, hmoved⟩ := ih hrest hmap
      rw [if_pos hthere]
      exact ⟨t, hexec, hmoved.cons hc hother rfl hchannel rfl hthere fun c' hc' _ => hc'⟩
    · set s' := s.modify c.id (Channel.moveTo (UInt64.ofNat position.toNat)) fun _ => rfl
      have hmap' : UpToDate map entries s' := by
        intro entry hentry
        obtain ⟨c', hc', hchannel', hname'⟩ := hmap entry hentry
        exact ⟨c', hc', Numbered.mem_modify_of_ne hchannel' (hother entry hentry c' hc'), hname'⟩
      have hplace : s'.items.map (·.place) = s.items.map (·.place) :=
        Numbered.map_modify (f := Channel.moveTo (UInt64.ofNat position.toNat)) _ (fun _ => rfl) c.id
      obtain ⟨t, hexec, hmoved⟩ := ih hrest hmap'
      rw [if_neg hthere]
      refine ⟨t, (Prog.exec_bind_ok (Prog.exec_send eval _ s) _).trans hexec, ?_⟩
      exact hmoved.cons hc hother hplace (Numbered.mem_modify_self hchannel) rfl (position_moveTo c position)
        fun c' hc' hne => Numbered.mem_modify_of_ne hc' hne

end Loops

/-! ### The maps -/

theorem mem_fronterPosMap {desired : List String} (hlength : desired.length ≤ UInt16.size) :
    ∃ posMap, fronterPosMap desired = some posMap ∧ (∀ name, name ∈ posMap ↔ name ∈ desired) ∧
      ∀ name pos, posMap.lookup name = some pos → desired[pos.toNat]? = some name := by
  have hmapM : (desired.zipIdx.mapM fun entry => (tryIntoU16 entry.2).map fun pos => (entry.1, pos)) =
      some (desired.zipIdx.map fun entry => (entry.1, UInt16.ofNat entry.2)) := by
    rw [mapM_eq_some_iff, List.map_map]
    refine List.map_congr_left fun entry hentry => ?_
    have hindex := (List.mem_zipIdx' hentry).1
    simp [tryIntoU16, show entry.2 < UInt16.size by omega]
  refine ⟨_, by rw [fronterPosMap, hmapM]; rfl, fun name => ?_, fun name pos hpos => ?_⟩
  · have hnames : (desired.zipIdx.map fun entry => (entry.1, UInt16.ofNat entry.2)).map Prod.fst = desired := by
      rw [List.map_map]
      exact List.zipIdx_map_fst 0 desired
    rw [HashMap.mem_collect, hnames]
  · obtain ⟨entry, hentry, heq⟩ := List.mem_map.mp (HashMap.mem_of_lookup_collect hpos)
    obtain ⟨rfl, rfl⟩ := Prod.mk.inj heq
    have hindex := (List.mem_zipIdx' hentry).1
    rw [UInt16.toNat_ofNat_of_lt' (by omega)]
    exact List.mem_zipIdx_iff_getElem?.mp hentry

theorem map_fst_entries {V : Type} (order : Order) (map : HashMap String V) :
    ((order.entries map).map Prod.fst).Sublist (order.list map.keys) := by
  unfold Order.entries
  induction order.list map.keys with
  | nil => exact List.Sublist.refl _
  | cons name names ih =>
    cases hlookup : map.lookup name with
    | none => simpa [hlookup] using ih.cons name
    | some value => simpa [hlookup] using ih.cons_cons name

theorem mem_entries {V : Type} {order : Order} {map : HashMap String V} {name : String} {value : V} :
    (name, value) ∈ order.entries map ↔ map.lookup name = some value := by
  unfold Order.entries
  rw [List.mem_filterMap]
  constructor
  · rintro ⟨name', -, heq⟩
    obtain ⟨value', hlookup, heq⟩ := Option.map_eq_some_iff.mp heq
    cases heq
    exact hlookup
  · intro hlookup
    refine ⟨name, order.mem_list.mpr (Finmap.mem_keys.mpr (Finmap.mem_of_lookup_eq_some hlookup)), ?_⟩
    rw [hlookup]
    rfl

/-- Deleting the old names and adding the new ones gives the desired ones if no name comes twice. -/
theorem perm_iff_nodup {current desired deleted created : List String} (hdeleted : deleted.Nodup)
    (hcreated : created.Nodup) (hdelete : ∀ name, name ∈ deleted ↔ name ∈ current ∧ name ∉ desired)
    (hcreate : ∀ name, name ∈ created ↔ name ∈ desired ∧ name ∉ current) :
    (current ++ created).Perm (deleted ++ desired.dedup) ↔ current.Nodup := by
  have hright : (deleted ++ desired.dedup).Nodup := by
    refine hdeleted.append desired.nodup_dedup fun name hname hdesired => ?_
    exact ((hdelete name).mp hname).2 (List.mem_dedup.mp hdesired)
  constructor
  · intro hperm
    exact (hperm.nodup_iff.mpr hright).of_append_left
  · intro hcurrent
    have hleft : (current ++ created).Nodup :=
      hcurrent.append hcreated fun name hname hcreated => ((hcreate name).mp hcreated).2 hname
    refine (List.perm_ext_iff_of_nodup hleft hright).mpr fun name => ?_
    rw [List.mem_append, List.mem_append, List.mem_dedup, hdelete, hcreate]
    tauto

/-! ### The function -/

theorem names_eq_of_place {catId : ChannelId} {s t : Discord}
    (h : t.items.map (·.place) = s.items.map (·.place)) : names catId t = names catId s := by
  have hnames : ∀ u : Discord, names catId u =
      ((u.items.map (·.place)).filter fun place => place.2.2 = some catId).map fun place => place.2.1 := by
    intro u
    rw [List.filter_map, List.map_map]
    rfl
  rw [hnames, hnames, h]

section Update
variable {orders : Orders} {guild : GuildId} {catId : ChannelId} {members : List Member} {s : Discord}
  {current : List String}

theorem tracks_collect (hnames : names catId s = current.map some) :
    Tracks catId (HashMap.collect (current.zip (under catId s.items))) s := by
  intro name c hlookup
  obtain ⟨i, hi⟩ := List.mem_iff_getElem?.mp (HashMap.mem_of_lookup_collect hlookup)
  obtain ⟨hname, hc⟩ := List.getElem?_zip_eq_some.mp hi
  obtain ⟨hchannel, hparent⟩ := mem_under.mp (List.mem_of_getElem? hc)
  refine ⟨hchannel, ?_, hparent⟩
  have hat : (names catId s)[i]? = (current.map some)[i]? := congrArg (·[i]?) hnames
  rw [names, List.getElem?_map, List.getElem?_map, hc, hname] at hat
  exact Option.some.inj hat

theorem exec_getFronterChannels (guild : GuildId) (catId : ChannelId) (s : Discord) :
    (getFronterChannels guild catId).exec eval s = (.ok (under catId s.items), s) := rfl

/-- A channel of the category is where the entry of its name says. -/
theorem Moved.position_eq {map : HashMap String Channel} {entries : List (String × UInt16)} {t : Discord}
    {c : Channel} {name : String} {position : UInt16} (h : Moved map entries s t) (htracks : Tracks catId map s)
    (hentry : (name, position) ∈ entries) (hmap : name ∈ map) (hnodup : (names catId t).Nodup)
    (hc : c ∈ under catId t.items) (hname : c.name = some name) : c.position = some (position.toNat : Int) := by
  obtain ⟨c₁, hc₁⟩ := Finmap.mem_iff.mp hmap
  obtain ⟨c', hc', hid, hposition⟩ := h.position (name, position) hentry c₁ hc₁
  obtain ⟨hchannel₁, hname₁, hparent₁⟩ := htracks name c₁ hc₁
  -- the channel that has been moved is the one of this name
  have hplace : c₁.place ∈ t.items.map (·.place) := h.place ▸ List.mem_map_of_mem hchannel₁
  obtain ⟨c₂, hc₂, hplace⟩ := List.mem_map.mp hplace
  simp only [Channel.place, Prod.mk.injEq] at hplace
  obtain ⟨hid₂, hname₂, hparent₂⟩ := hplace
  obtain rfl : c' = c₂ := Numbered.eq_of_id hc' hc₂ (hid.trans hid₂.symm)
  obtain rfl : c = c' := List.inj_on_of_nodup_map hnodup hc (mem_under.mpr ⟨hc', hparent₂.trans hparent₁⟩)
    (hname.trans (hname₂.trans hname₁).symm)
  exact hposition

/-- The run, if the channels under the category have names. -/
theorem exec_updateFronterChannels (orders : Orders) (guild : GuildId) (hlength : members.length ≤ UInt16.size)
    (hids : members.length ≤ s.newIds.length) (hnames : names catId s = current.map some) :
    ∃ (t : Discord) (deleted created : List String),
      (updateFronterChannels orders guild catId members).exec eval s = (.ok (), t) ∧ deleted.Nodup ∧ created.Nodup ∧
      (∀ name, name ∈ deleted ↔ name ∈ current ∧ name ∉ members.map getMemberName) ∧
      (∀ name, name ∈ created ↔ name ∈ members.map getMemberName ∧ name ∉ current) ∧
      (current.map some ++ created.map some).Perm (deleted.map some ++ names catId t) ∧
      ((names catId t).Nodup → (∀ name ∈ names catId t, ∃ fronter ∈ members.map getMemberName, name = some fronter) →
        ∀ c ∈ under catId t.items, ∃ (index : Nat) (name : String), c.name = some name ∧
          (members.map getMemberName)[index]? = some name ∧ c.position = some index) := by
  set desired := members.map getMemberName with hdesired
  obtain ⟨posMap, hposMap, hpositions, hindex⟩ := mem_fronterPosMap (show desired.length ≤ UInt16.size by
    simpa [hdesired])
  set deleted := (orders.currentFronters.list current.toFinset).filter (· ∉ desired.toFinset) with hdeleted
  set created := (orders.desiredFrontersSet.list desired.toFinset).filter (· ∉ current.toFinset) with hcreated
  have hmemDeleted : ∀ name, name ∈ deleted ↔ name ∈ current ∧ name ∉ desired := by
    intro name
    simp [hdeleted, orders.currentFronters.mem_list]
  have hmemCreated : ∀ name, name ∈ created ↔ name ∈ desired ∧ name ∉ current := by
    intro name
    simp [hcreated, orders.desiredFrontersSet.mem_list]
  have hnodupDeleted : deleted.Nodup := (orders.currentFronters.nodup _).filter _
  have hnodupCreated : created.Nodup := (orders.desiredFrontersSet.nodup _).filter _
  have hlengths : current.length = (under catId s.items).length := by
    simpa [names] using (congrArg List.length hnames).symm
  have hkeys : ∀ name, name ∈ HashMap.collect (current.zip (under catId s.items)) ↔ name ∈ current := by
    intro name
    rw [HashMap.mem_collect, List.map_fst_zip hlengths.le]
  obtain ⟨map₁, t₁, hexec₁, htracks₁, hkeys₁, hnames₁, hids₁⟩ :=
    exec_deleteOld guild hnodupDeleted (tracks_collect hnames) fun name hname =>
      (hkeys name).mpr ((hmemDeleted name).mp hname).1
  have hroom : created.length ≤ t₁.newIds.length := by
    have hsubset : created ⊆ desired := fun name hname => ((hmemCreated name).mp hname).1
    have hle := (List.subperm_of_subset hnodupCreated hsubset).length_le
    rw [hids₁]
    simp only [hdesired, List.length_map] at hle
    omega
  have hposCreated : ∀ name ∈ created, name ∈ posMap :=
    fun name hname => (hpositions name).mpr ((hmemCreated name).mp hname).1
  obtain ⟨map₂, t₂, hexec₂, htracks₂, hkeys₂, hnames₂⟩ :=
    exec_createNew guild hposCreated htracks₁ hroom
  have hfound : ∀ name ∈ desired, name ∈ map₂ := by
    intro name hname
    rw [hkeys₂, hkeys₁, hkeys, hmemDeleted, hmemCreated]
    tauto
  have hentries : UpToDate map₂ (orders.fronterPosMap.entries posMap) t₂ := by
    rintro ⟨name, pos⟩ hentry
    have hname := (hpositions name).mp (Finmap.mem_of_lookup_eq_some (mem_entries.mp hentry))
    obtain ⟨c, hc⟩ := Finmap.mem_iff.mp (hfound name hname)
    exact ⟨c, hc, (htracks₂ name c hc).1, (htracks₂ name c hc).2.1⟩
  obtain ⟨t, hexec, hmoved⟩ :=
    exec_updatePositions guild ((orders.fronterPosMap.nodup _).sublist (map_fst_entries _ _)) hentries
  have hnamesT : names catId t = names catId t₂ := names_eq_of_place hmoved.place
  refine ⟨t, deleted, created, ?_, hnodupDeleted, hnodupCreated, hmemDeleted, hmemCreated, ?_, ?_⟩
  · unfold updateFronterChannels
    refine (Prog.exec_bind_ok (exec_getFronterChannels guild catId s) _).trans ?_
    rw [mapM_eq_some_iff.mpr hnames, ← hdesired]
    dsimp only
    rw [hposMap]
    refine (Prog.exec_bind_ok hexec₁ _).trans ?_
    exact (Prog.exec_bind_ok hexec₂ _).trans hexec
  · rw [hnamesT, hnames₂, ← List.append_assoc, ← hnames]
    exact hnames₁.append_right _
  · intro hnodup hall c hc
    obtain ⟨name, hname, hcname⟩ := hall _ (List.mem_map_of_mem hc)
    obtain ⟨pos, hpos⟩ := Finmap.mem_iff.mp ((hpositions name).mpr hname)
    refine ⟨pos.toNat, name, hcname, hindex name pos hpos, ?_⟩
    exact hmoved.position_eq htracks₂ (mem_entries.mpr hpos) (hfound name hname) hnodup hc hcname

/-- The names under the category are the ones that it sees if there are no two of the same. -/
theorem converges_iff_nodup (hlength : members.length ≤ UInt16.size) (hids : members.length ≤ s.newIds.length)
    (hnames : names catId s = current.map some) :
    (∃ t, (updateFronterChannels orders guild catId members).exec eval s = (.ok (), t) ∧
      Converged catId (members.map getMemberName) t) ↔ current.Nodup := by
  obtain ⟨t, deleted, created, hexec, hdeleted, hcreated, hdelete, hcreate, hperm, hposition⟩ :=
    exec_updateFronterChannels orders guild hlength hids hnames
  set desired := members.map getMemberName
  have hnodup := perm_iff_nodup hdeleted hcreated hdelete hcreate
  constructor
  · rintro ⟨t', hexec', hconverged⟩
    obtain rfl : t = t' := congrArg Prod.snd (hexec.symm.trans hexec')
    have hall := hperm.trans (hconverged.names.append_left _)
    rw [← List.map_append, ← List.map_append, List.map_perm_map_iff (Option.some_injective _)] at hall
    exact hnodup.mp hall
  · intro hcurrent
    have hall := (hnodup.mpr hcurrent).map some
    rw [List.map_append, List.map_append] at hall
    have hthere : (names catId t).Perm (desired.dedup.map some) :=
      (List.perm_append_left_iff _).mp (hperm.symm.trans hall)
    have hdistinct : (names catId t).Nodup :=
      hthere.nodup_iff.mpr (desired.nodup_dedup.map (Option.some_injective _))
    refine ⟨t, hexec, hthere, hposition hdistinct fun name hname => ?_⟩
    obtain ⟨fronter, hfronter, rfl⟩ := List.mem_map.mp (hthere.mem_iff.mp hname)
    exact ⟨fronter, List.mem_dedup.mp hfronter, rfl⟩

/-- A channel without a name is a panic. -/
theorem exec_of_nameless (hnames : (under catId s.items).mapM (·.name) = none) :
    (updateFronterChannels orders guild catId members).exec eval s =
      (.error (.panic "guild channels have names"), s) := by
  unfold updateFronterChannels
  refine (Prog.exec_bind_ok (exec_getFronterChannels guild catId s) _).trans ?_
  rw [hnames]
  rfl

end Update

/-- If every call succeeds, the function leaves the category as it should be exactly when the channels under it have
names and no two have the same one. -/
theorem update_fronter_channels_converges_iff (orders : Orders) (guild : GuildId) (catId : ChannelId)
    {members : List Member} (hlength : members.length ≤ UInt16.size) {s : Discord}
    (hids : members.length ≤ s.newIds.length) :
    (∃ t, (updateFronterChannels orders guild catId members).exec eval s = (.ok (), t) ∧
        Converged catId (members.map getMemberName) t) ↔
      ∃ current : List String, names catId s = current.map some ∧ current.Nodup := by
  constructor
  · rintro ⟨t, hexec, hconverged⟩
    cases hnames : (under catId s.items).mapM (·.name) with
    | none =>
      rw [exec_of_nameless hnames] at hexec
      cases hexec
    | some current =>
      rw [mapM_eq_some_iff] at hnames
      exact ⟨current, hnames, (converges_iff_nodup hlength hids hnames).mp ⟨t, hexec, hconverged⟩⟩
  · rintro ⟨current, hnames, hcurrent⟩
    exact (converges_iff_nodup hlength hids hnames).mpr hcurrent

/-! ### Two guilds -/

def descending : Order where
  list set := set.sort (· ≥ ·)
  nodup set := set.sort_nodup (· ≥ ·)
  mem_list := Finset.mem_sort (· ≥ ·)

def descendingOrders : Orders := ⟨descending, descending, descending⟩

def fronterGuild : GuildId := ⟨208, by decide⟩

def exampleFronters : ChannelId := ⟨201, by decide⟩

def exampleFronter (name : String) : Member := ⟨⟨0⟩, name, none⟩

/-- Two channels outside of the category and two under it, one of a system member who has stopped fronting. -/
def exampleChannels : Discord where
  items := [⟨⟨201, by decide⟩, .other 4, some "fronters", none, some 0⟩,
    ⟨⟨202, by decide⟩, .other 0, some "general", none, some 1⟩,
    ⟨⟨203, by decide⟩, .guildVoice, some "Ada", some exampleFronters, some 7⟩,
    ⟨⟨204, by decide⟩, .guildVoice, some "Bo", some exampleFronters, none⟩]
  newIds := [⟨205, by decide⟩, ⟨206, by decide⟩, ⟨207, by decide⟩]
  nodup := by decide

theorem update_fronter_channels_converges_example :
    ∃ t, (updateFronterChannels descendingOrders fronterGuild exampleFronters
        (["Cleo", "Ada", "Cleo"].map exampleFronter)).exec eval exampleChannels = (.ok (), t) ∧
      Converged exampleFronters ["Cleo", "Ada", "Cleo"] t :=
  (update_fronter_channels_converges_iff _ _ _ (by decide) (by decide)).mpr ⟨["Ada", "Bo"], by decide, by decide⟩

/-- Two runs at once have made a channel each for the same fronter. -/
def twiceCreated : Discord where
  items := [⟨⟨201, by decide⟩, .other 4, some "fronters", none, some 0⟩,
    ⟨⟨203, by decide⟩, .guildVoice, some "Ada", some exampleFronters, some 0⟩,
    ⟨⟨204, by decide⟩, .guildVoice, some "Ada", some exampleFronters, some 0⟩]
  newIds := [⟨205, by decide⟩]
  nodup := by decide

/-- The second channel is never deleted. -/
theorem second_channel_stays :
    ¬∃ t, (updateFronterChannels descendingOrders fronterGuild exampleFronters
        [exampleFronter "Ada"]).exec eval twiceCreated = (.ok (), t) ∧ Converged exampleFronters ["Ada"] t := by
  intro h
  have hnames : names exampleFronters twiceCreated = ["Ada", "Ada"].map some := by decide
  have hnodup := (converges_iff_nodup (by decide) (by decide) hnames).mp h
  simp at hnodup

end Tulpje.Pluralkit.FronterChannels
