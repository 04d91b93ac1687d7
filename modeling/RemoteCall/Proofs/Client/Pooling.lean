import Mathlib.Data.List.Induction
import RemoteCall.Proofs.Client.Operations
import RemoteCall.Proofs.Client.Quiet

/-! # One live channel for each address

    Channels are put into a pool, asked for, taken out and closed, and they also
    end on their own (`Act`).  What an act does is told by two look-ups: which
    channel is in use for an address then (`idFor_perform`), and what has become
    of a channel (`channel?_perform`).

    A run keeps the invariant `Sound`: a channel in use is known and goes to the
    address, and a known channel that is active is in use for its address.  So
    two active channels never share an address, and the active one is what
    somebody who asks for the address is given (`exclusive_of_run`). -/

namespace RemoteCall.ChannelPool

/-- What happens to a pool. -/
inductive Act where
  /-- A channel is put in. -/
  | put (channel : Channel)
  /-- Somebody asks for the channel to an address. -/
  | ask (address : SocketAddress)
  /-- The channel to an address is taken out. -/
  | remove (address : SocketAddress)
  /-- All channels are taken out. -/
  | closeAll
  /-- A channel becomes inactive on its own, whether it is in use or not. -/
  | lose (id : ChannelId)

variable (pool : ChannelPool)

/-- What an act comes to. -/
def perform : Act → ChannelPool
  | .put channel => (pool.set channel).2
  | .ask address => (pool.get address).2
  | .remove address => (pool.remove address).2
  | .closeAll => pool.closeAll.2
  | .lose id => (pool.closeThese [id]).2

/-- What acts come to, one after another, from a new pool on. -/
def run (acts : List Act) : ChannelPool :=
  acts.foldl perform empty

theorem run_concat (acts : List Act) (act : Act) : run (acts ++ [act]) = (run acts).perform act :=
  List.foldl_append

/-! ## What an act does -/

/-- The channels that an act closes or that end with it. -/
def endsWith : Act → List ChannelId
  | .put channel => (pool.idFor channel.address).toList
  | .ask _ => []
  | .remove address => (pool.idFor address).toList
  | .closeAll => pool.inUse.map (·.2)
  | .lose id => [id]

/-- The channel with a number, once an act has put its channel in. -/
def knownWith : Act → ChannelId → Option Channel
  | .put channel, id => (pool.channel? id).or (if channel.id = id then some channel else none)
  | _, id => pool.channel? id

theorem channel?_put (channel : Channel) (inUse : List (SocketAddress × ChannelId))
    (id : ChannelId) :
    channel? ⟨if (pool.channel? channel.id).isSome then pool.channels
      else channel :: pool.channels, inUse⟩ id = pool.knownWith (.put channel) id := by
  rw [knownWith]
  by_cases same : channel.id = id
  · subst same
    rw [if_pos rfl]
    cases known : pool.channel? channel.id with
    | some other => exact known
    | none => exact List.find?_cons_of_pos (by simp)
  · rw [if_neg same, Option.or_none]
    show List.find? _ _ = _
    dsimp only
    split
    · rfl
    · exact List.find?_cons_of_neg (by simpa using same)

/-- An act makes inactive what it ends, and leaves the other channels as they are. -/
theorem channel?_perform (act : Act) (id : ChannelId) :
    (pool.perform act).channel? id = (pool.knownWith act id).map fun channel =>
      if id ∈ pool.endsWith act then channel.deactivate else channel := by
  cases act with
  | put channel =>
      rw [← pool.channel?_put channel ((channel.address, channel.id)
        :: (pool.forget channel.address).inUse)]
      exact channel?_closeThese _ _ id
  | ask address =>
      rw [knownWith]
      have same : (pool.perform (.ask address)).channel? id = pool.channel? id :=
        congrArg (List.find? _) (pool.channels_get address)
      rw [same]
      · simp [endsWith]
      · exact nofun
  | remove address => exact channel?_closeThese _ _ id
  | closeAll => exact channel?_closeThese _ _ id
  | lose other => exact channel?_closeThese _ _ id

theorem idFor_closeThese (ids : List ChannelId) (address : SocketAddress) :
    (pool.closeThese ids).2.idFor address = pool.idFor address :=
  congrArg (List.lookup address) (Client.inUse_closeThese pool ids)

theorem idFor_forget (address other : SocketAddress) :
    (pool.forget address).idFor other = if other = address then none else pool.idFor other := by
  by_cases same : other = address
  · rw [if_pos same, same, Client.idFor_forget]
  · rw [if_neg same, idFor, idFor, forget]
    dsimp only
    induction pool.inUse with
    | nil => rfl
    | cons use uses ih =>
        by_cases here : use.1 = address
        · have apart : (other == use.1) = false := beq_eq_false_iff_ne.mpr (here ▸ same)
          rw [List.filter_cons_of_neg (by simp [here]), ih, List.lookup_cons, apart]
        · rw [List.filter_cons_of_pos (by simp [here]), List.lookup_cons, List.lookup_cons, ih]

/-- To ask for an address gives the active channel in use; an inactive one is dropped. -/
theorem get_cases (address : SocketAddress) :
    (∃ id channel, pool.idFor address = some id ∧ pool.channel? id = some channel
        ∧ channel.isActive = true ∧ pool.get address = (some channel, pool))
      ∨ (∃ id channel, pool.idFor address = some id ∧ pool.channel? id = some channel
        ∧ channel.isActive = false ∧ pool.get address = (none, pool.forget address))
      ∨ (pool.idFor address).bind pool.channel? = none ∧ pool.get address = (none, pool) := by
  rw [get]
  cases found : (pool.idFor address).bind pool.channel? with
  | none => exact .inr (.inr ⟨rfl, rfl⟩)
  | some channel =>
      obtain ⟨id, used, known⟩ := Option.bind_eq_some_iff.mp found
      dsimp only
      cases active : channel.isActive with
      | true => exact .inl ⟨id, channel, used, known, active, rfl⟩
      | false => exact .inr (.inl ⟨id, channel, used, known, active, rfl⟩)

/-! ## The invariant -/

/-- What is in use fits the channels that are known. -/
structure Sound (pool : ChannelPool) : Prop where
  /-- A channel in use is known and goes to the address. -/
  placed : ∀ address id, pool.idFor address = some id →
    ∃ channel, pool.channel? id = some channel ∧ channel.address = address
  /-- An active channel is in use for its address. -/
  inUse : ∀ id channel, pool.channel? id = some channel → channel.isActive = true →
    pool.idFor channel.address = some id

/-- Whether an act puts in a channel under a number that is known for another address. -/
def Fits (act : Act) : Prop :=
  ∀ channel known, act = .put channel → pool.channel? channel.id = some known →
    known.address = channel.address

variable {pool} {act : Act}

theorem id_of_channel? {id : ChannelId} {channel : Channel}
    (known : pool.channel? id = some channel) : channel.id = id :=
  List.key_of_find? known

/-- A channel that is known after an act was known before, or the act put it in. -/
theorem knownWith_cases {id : ChannelId} {channel : Channel}
    (known : pool.knownWith act id = some channel) :
    pool.channel? id = some channel ∨ pool.channel? id = none ∧ channel.id = id
      ∧ act = .put channel := by
  cases act with
  | put new =>
      rw [knownWith] at known
      cases before : pool.channel? id with
      | some other =>
          rw [before] at known
          exact .inl known
      | none =>
          rw [before, Option.none_or, Option.ite_none_right_eq_some] at known
          obtain ⟨same, new⟩ := known
          obtain rfl := Option.some.inj new
          exact .inr ⟨rfl, same, rfl⟩
  | ask address => exact .inl known
  | remove address => exact .inl known
  | closeAll => exact .inl known
  | lose other => exact .inl known

theorem knownWith_of_channel? {id : ChannelId} {channel : Channel}
    (known : pool.channel? id = some channel) : pool.knownWith act id = some channel := by
  cases act with
  | put new => rw [knownWith, known, Option.some_or]
  | ask address => exact known
  | remove address => exact known
  | closeAll => exact known
  | lose other => exact known

/-- An act keeps the addresses of channels. -/
theorem channel?_of_knownWith {id : ChannelId} {channel : Channel}
    (known : pool.knownWith act id = some channel) :
    ∃ after, (pool.perform act).channel? id = some after ∧ after.address = channel.address := by
  rw [channel?_perform, known]
  refine ⟨_, rfl, ?_⟩
  split <;> rfl

/-- A channel that is active after an act was so before, if it was known, and did not end with the
act. -/
theorem active_of_perform {id : ChannelId} {channel : Channel}
    (known : (pool.perform act).channel? id = some channel) (active : channel.isActive = true) :
    pool.knownWith act id = some channel ∧ id ∉ pool.endsWith act := by
  rw [channel?_perform] at known
  obtain ⟨before, found, same⟩ := Option.map_eq_some_iff.mp known
  by_cases ended : id ∈ pool.endsWith act
  · rw [if_pos ended] at same
    subst same
    exact nomatch active
  · rw [if_neg ended] at same
    exact ⟨same ▸ found, ended⟩

theorem idFor_put (channel : Channel) (address : SocketAddress) :
    (pool.perform (.put channel)).idFor address
      = if address = channel.address then some channel.id else pool.idFor address := by
  refine (idFor_closeThese _ _ address).trans ?_
  rw [idFor]
  dsimp only
  by_cases same : address = channel.address
  · rw [if_pos same, List.lookup_cons, beq_iff_eq.mpr same]
  · have other := pool.idFor_forget channel.address address
    rw [if_neg same] at other ⊢
    rw [List.lookup_cons, beq_eq_false_iff_ne.mpr same]
    exact other

/-- Where another channel, or none, is in use for an address after an act, no active channel that
outlives the act was in use for it. -/
theorem idFor_perform (act : Act) (address : SocketAddress) :
    (pool.perform act).idFor address = pool.idFor address
      ∨ ((∃ channel, act = .put channel ∧ channel.address = address)
          ∨ (pool.perform act).idFor address = none)
        ∧ ∀ id channel, pool.idFor address = some id → pool.channel? id = some channel →
          channel.isActive = true → id ∈ pool.endsWith act := by
  -- what was in use for the address ends with the act
  have ended {act : Act} (ends : pool.endsWith act = (pool.idFor address).toList) (id : ChannelId)
      (channel : Channel) (used : pool.idFor address = some id) (_ : pool.channel? id = some channel)
      (_ : channel.isActive = true) : id ∈ pool.endsWith act := by
    rw [ends, used]
    exact .head _
  cases act with
  | put channel =>
      by_cases same : address = channel.address
      · subst same
        exact .inr ⟨.inl ⟨channel, rfl, rfl⟩, ended rfl⟩
      · rw [idFor_put, if_neg same]
        exact .inl rfl
  | ask other =>
      rcases pool.get_cases other with ⟨_, _, _, _, _, got⟩ | ⟨id, channel, used, known, dead, got⟩
        | ⟨-, got⟩
      · exact .inl (congrArg (idFor ·.2 address) got)
      · have after : (pool.perform (.ask other)).idFor address
            = (pool.forget other).idFor address := congrArg (idFor ·.2 address) got
        rw [after, idFor_forget]
        by_cases same : address = other
        · subst same
          rw [if_pos rfl]
          refine .inr ⟨.inr rfl, fun id' channel' used' known' active => ?_⟩
          obtain rfl := Option.some.inj (used.symm.trans used')
          obtain rfl := Option.some.inj (known.symm.trans known')
          exact nomatch dead.symm.trans active
        · rw [if_neg same]
          exact .inl rfl
      · exact .inl (congrArg (idFor ·.2 address) got)
  | remove other =>
      have after : (pool.perform (.remove other)).idFor address
          = (pool.forget other).idFor address := idFor_closeThese _ _ address
      rw [after, idFor_forget]
      by_cases same : address = other
      · subst same
        rw [if_pos rfl]
        exact .inr ⟨.inr rfl, ended rfl⟩
      · rw [if_neg same]
        exact .inl rfl
  | closeAll =>
      have after : (pool.perform .closeAll).idFor address = none := idFor_closeThese _ _ address
      refine .inr ⟨.inr after, fun id _ used _ _ => ?_⟩
      obtain ⟨first, last, uses, -⟩ := List.lookup_eq_some_iff.mp used
      refine List.mem_map.mpr ⟨(address, id), ?_, rfl⟩
      rw [uses]
      exact List.mem_append_right _ (.head _)
  | lose id => exact .inl (idFor_closeThese _ _ address)

/-- An act keeps the invariant, if the number of the channel that it puts in belongs to one
address. -/
theorem Sound.perform (sound : pool.Sound) (fits : pool.Fits act) : (pool.perform act).Sound where
  placed := by
    intro address id used
    have kept {channel : Channel} (known : pool.knownWith act id = some channel)
        (goes : channel.address = address) :
        ∃ after, (pool.perform act).channel? id = some after ∧ after.address = address := by
      obtain ⟨after, known, same⟩ := channel?_of_knownWith known
      exact ⟨after, known, same.trans goes⟩
    rcases pool.idFor_perform act address with same | ⟨⟨channel, rfl, rfl⟩ | none, -⟩
    · obtain ⟨channel, known, goes⟩ := sound.placed address id (same ▸ used)
      exact kept (knownWith_of_channel? known) goes
    · rw [idFor_put, if_pos rfl] at used
      obtain rfl := Option.some.inj used
      cases known : pool.channel? channel.id with
      | some other =>
          exact kept (knownWith_of_channel? known) (fits channel other rfl known)
      | none =>
          have new : pool.knownWith (.put channel) channel.id = some channel := by
            rw [knownWith, known, Option.none_or, if_pos rfl]
          exact kept new rfl
    · exact nomatch none.symm.trans used
  inUse := by
    intro id channel known active
    obtain ⟨known, lives⟩ := active_of_perform known active
    rcases knownWith_cases known with before | ⟨-, rfl, rfl⟩
    · have used := sound.inUse id channel before active
      rcases pool.idFor_perform act channel.address with same | ⟨-, ended⟩
      · rw [same, used]
      · exact absurd (ended id channel used before active) lives
    · rw [idFor_put, if_pos rfl]

/-! ## Runs -/

/-- Whether acts put in a channel with a number for an address. -/
def Stored (acts : List Act) (id : ChannelId) (address : SocketAddress) : Prop :=
  ∃ channel, .put channel ∈ acts ∧ channel.id = id ∧ channel.address = address

/-- Every number is that of one channel. -/
def Numbered (acts : List Act) : Prop :=
  ∀ id address other, Stored acts id address → Stored acts id other → address = other

variable {acts : List Act}

theorem Stored.concat {id : ChannelId} {address : SocketAddress} (stored : Stored acts id address)
    (act : Act) : Stored (acts ++ [act]) id address := by
  obtain ⟨channel, mem, same⟩ := stored
  exact ⟨channel, List.mem_append_left _ mem, same⟩

/-- A pool knows the channels that were ever put in, and keeps the invariant. -/
theorem sound_run (numbered : Numbered acts) :
    (run acts).Sound ∧ (∀ id channel, (run acts).channel? id = some channel →
        Stored acts id channel.address)
      ∧ ∀ id address, Stored acts id address →
        ∃ channel, (run acts).channel? id = some channel ∧ channel.address = address := by
  induction acts using List.reverseRecOn with
  | nil => exact ⟨⟨nofun, nofun⟩, nofun, nofun⟩
  | append_singleton acts act ih =>
      obtain ⟨sound, stored, known⟩ := ih fun id address other first second =>
        numbered id address other (first.concat act) (second.concat act)
      rw [run_concat]
      have last (channel : Channel) (same : act = .put channel) :
          Stored (acts ++ [act]) channel.id channel.address :=
        ⟨channel, same ▸ List.mem_append_right _ (.head _), rfl, rfl⟩
      have fits : (run acts).Fits act := fun channel other put before =>
        numbered channel.id _ _ ((stored _ other before).concat act) (last channel put)
      have kept {id : ChannelId} {channel : Channel}
          (before : (run acts).knownWith act id = some channel) :=
        channel?_of_knownWith before
      refine ⟨sound.perform fits, fun id channel found => ?_, fun id address put => ?_⟩
      · rw [channel?_perform] at found
        obtain ⟨before, found, same⟩ := Option.map_eq_some_iff.mp found
        have same : channel.address = before.address := by
          rw [← same]
          split <;> rfl
        rw [same]
        rcases knownWith_cases found with found | ⟨-, rfl, put⟩
        · exact (stored id before found).concat act
        · exact last before put
      · obtain ⟨channel, mem, rfl, rfl⟩ := put
        rcases List.mem_append.mp mem with mem | mem
        · obtain ⟨other, found, same⟩ := known channel.id channel.address ⟨channel, mem, rfl, rfl⟩
          obtain ⟨after, found, goes⟩ := kept (knownWith_of_channel? found)
          exact ⟨after, found, goes.trans same⟩
        · obtain rfl := List.mem_singleton.mp mem
          cases before : (run acts).channel? channel.id with
          | some other =>
              obtain ⟨after, found, goes⟩ := kept (knownWith_of_channel? before)
              exact ⟨after, found, goes.trans (fits channel other rfl before)⟩
          | none =>
              have new : (run acts).knownWith (.put channel) channel.id = some channel := by
                rw [knownWith, before, Option.none_or, if_pos rfl]
              exact kept new

/-! ## What a pool has -/

theorem isActive_iff {id : ChannelId} :
    pool.isActive id = true ↔ ∃ channel, pool.channel? id = some channel
      ∧ channel.isActive = true := by
  rw [isActive, Option.any_eq_true]

/-- Somebody who asks for an address gets the active channel that goes there. -/
theorem Sound.get_of_isActive (sound : pool.Sound) {id : ChannelId} {channel : Channel}
    (known : pool.channel? id = some channel) (active : channel.isActive = true) :
    pool.get channel.address = (some channel, pool) := by
  have used := sound.inUse id channel known active
  rcases pool.get_cases channel.address with
    ⟨id', channel', used', known', -, got⟩ | ⟨id', channel', used', known', dead, -⟩ | ⟨none, -⟩
  · obtain rfl := Option.some.inj (used.symm.trans used')
    obtain rfl := Option.some.inj (known.symm.trans known')
    exact got
  · obtain rfl := Option.some.inj (used.symm.trans used')
    obtain rfl := Option.some.inj (known.symm.trans known')
    exact nomatch dead.symm.trans active
  · rw [used] at none
    exact nomatch known.symm.trans none

/-- What somebody is given goes where he asked for, and is active. -/
theorem Sound.active_of_get (sound : pool.Sound) {address : SocketAddress} {channel : Channel}
    (found : (pool.get address).1 = some channel) :
    channel.address = address ∧ pool.channel? channel.id = some channel
      ∧ channel.isActive = true := by
  rcases pool.get_cases address with ⟨id, other, used, there, active, got⟩ | ⟨_, _, -, -, -, got⟩
    | ⟨-, got⟩
  · rw [got] at found
    obtain rfl := Option.some.inj found
    obtain ⟨placed, there', goes⟩ := sound.placed address id used
    obtain rfl := Option.some.inj (there.symm.trans there')
    obtain rfl := id_of_channel? there
    exact ⟨goes, there, active⟩
  · rw [got] at found
    exact nomatch found
  · rw [got] at found
    exact nomatch found

/-- To ask for an address drops the channel in use there if it is inactive. -/
theorem get_drops (pool : ChannelPool) (address : SocketAddress) :
    (pool.get address).2 = pool
      ∨ ∃ id, pool.idFor address = some id ∧ pool.isActive id = false
        ∧ (pool.get address).2 = pool.forget address := by
  rcases pool.get_cases address with ⟨_, _, -, -, -, got⟩ | ⟨id, channel, used, there, dead, got⟩
    | ⟨-, got⟩
  · exact .inl (congrArg Prod.snd got)
  · refine .inr ⟨id, used, Bool.eq_false_iff.mpr fun active => ?_, congrArg Prod.snd got⟩
    obtain ⟨other, there', active⟩ := isActive_iff.mp active
    obtain rfl := Option.some.inj (there.symm.trans there')
    exact nomatch dead.symm.trans active
  · exact .inl (congrArg Prod.snd got)

/-- A new channel is what somebody who asks for its address gets from then on. -/
theorem Sound.get_of_put (sound : pool.Sound) {channel : Channel}
    (new : pool.channel? channel.id = none) (active : channel.isActive = true) :
    ((pool.perform (.put channel)).get channel.address).1 = some channel := by
  have fits : pool.Fits (.put channel) := by
    intro other known put before
    obtain rfl := Act.put.inj put
    exact nomatch new.symm.trans before
  have spared : channel.id ∉ pool.endsWith (.put channel) := by
    intro ended
    obtain ⟨other, known, -⟩ := sound.placed channel.address channel.id
      (Option.mem_toList.mp ended)
    exact nomatch new.symm.trans known
  have known : (pool.perform (.put channel)).channel? channel.id = some channel := by
    rw [channel?_perform, knownWith, new, Option.none_or, if_pos rfl, Option.map_some,
      if_neg spared]
  exact congrArg Prod.fst ((sound.perform fits).get_of_isActive known active)

/-- Where all is taken out, every channel is inactive. -/
theorem Sound.isActive_closeAll (sound : pool.Sound) (id : ChannelId) :
    (pool.perform .closeAll).isActive id = false := by
  refine Bool.eq_false_iff.mpr fun active => ?_
  obtain ⟨channel, known, active⟩ := isActive_iff.mp active
  have after : (pool.perform .closeAll).Sound := sound.perform fun _ _ put => nomatch put
  -- an active channel would be in use, and none is
  exact nomatch (idFor_closeThese _ _ channel.address).symm.trans
    (after.inUse id channel known active)

/-- Of all channels that were ever put in, at most one active one goes to an address, and somebody
who asks for the address is given this one or none; whatever is no longer in use is inactive.  To ask
drops an inactive channel at most, and to take all out leaves none in use and none active. -/
theorem exclusive_of_run (numbered : Numbered acts) :
    let pool := run acts
    (∀ address channel, (pool.get address).1 = some channel →
        Stored acts channel.id address ∧ channel.address = address
          ∧ pool.channel? channel.id = some channel ∧ channel.isActive = true)
      ∧ (∀ address, (pool.get address).2 = pool
        ∨ ∃ id, pool.idFor address = some id ∧ pool.isActive id = false
          ∧ (pool.get address).2 = pool.forget address)
      ∧ (∀ id address, Stored acts id address →
        (∃ channel, pool.channel? id = some channel ∧ channel.address = address)
          ∧ (pool.idFor address ≠ some id → pool.isActive id = false)
          ∧ (pool.isActive id = true → ∃ channel, channel.id = id
            ∧ pool.get address = (some channel, pool)))
      ∧ (∀ id other address, Stored acts id address → Stored acts other address →
        pool.isActive id = true → pool.isActive other = true → id = other)
      ∧ (∀ channel, (∀ address, ¬ Stored acts channel.id address) → channel.isActive = true →
        ((pool.perform (.put channel)).get channel.address).1 = some channel)
      ∧ (pool.perform .closeAll).inUse = []
      ∧ ∀ id, (pool.perform .closeAll).isActive id = false := by
  intro pool
  obtain ⟨sound, stored, known⟩ := sound_run numbered
  have given {id : ChannelId} {address : SocketAddress} (put : Stored acts id address)
      (active : pool.isActive id = true) :
      ∃ channel, channel.id = id ∧ pool.get address = (some channel, pool) := by
    obtain ⟨channel, found, active⟩ := isActive_iff.mp active
    obtain ⟨other, found', rfl⟩ := known id address put
    obtain rfl := Option.some.inj (found.symm.trans found')
    exact ⟨channel, id_of_channel? found, sound.get_of_isActive found active⟩
  refine ⟨?_, pool.get_drops, fun id address put => ⟨known id address put, ?_, given put⟩, ?_, ?_,
    Client.inUse_closeThese _ _, sound.isActive_closeAll⟩
  · intro address channel found
    obtain ⟨goes, there, active⟩ := sound.active_of_get found
    exact ⟨goes ▸ stored _ channel there, goes, there, active⟩
  · intro unused
    refine Bool.eq_false_iff.mpr fun active => unused ?_
    obtain ⟨channel, found, active⟩ := isActive_iff.mp active
    obtain ⟨other, found', rfl⟩ := known id address put
    obtain rfl := Option.some.inj (found.symm.trans found')
    exact sound.inUse id channel found active
  · intro id other address first second active active'
    obtain ⟨channel, rfl, got⟩ := given first active
    obtain ⟨channel', rfl, got'⟩ := given second active'
    have same := congrArg Prod.fst (got.symm.trans got')
    exact congrArg Channel.id (Option.some.inj same)
  · intro channel new active
    refine sound.get_of_put (Option.eq_none_iff_forall_ne_some.mpr fun other found => ?_) active
    exact new other.address (stored channel.id other found)

/-- A channel that is stored again closes itself; of two later ones for its address the second closes
the first, which then also ends on its own, and the second is what one gets. -/
theorem exclusive_of_run_again :
    let address : SocketAddress := ⟨.v4 127 0 0 1, 1, 0⟩
    let channel (id : ChannelId) := Channel.fresh id address (.standard .codecs)
    let acts : List Act := [.put (channel 1), .put (channel 1), .put (channel 2), .put (channel 3),
      .lose 2]
    Numbered acts ∧ Stored acts 3 address ∧ (run acts).isActive 3 = true
      ∧ ∃ last, last.id = 3 ∧ (run acts).get address = (some last, run acts) := by
  intro address channel acts
  have numbered : Numbered acts := by
    rintro id first other ⟨one, mem, -, rfl⟩ ⟨two, mem', -, rfl⟩
    have goes (one : Channel) (mem : .put one ∈ acts) : one.address = address := by
      simp only [acts, List.mem_cons, Act.put.injEq, List.not_mem_nil, or_false, reduceCtorEq]
        at mem
      rcases mem with rfl | rfl | rfl | rfl <;> rfl
    rw [goes one mem, goes two mem']
  have stored : Stored acts 3 address := ⟨channel 3, by simp [acts], rfl, rfl⟩
  have active : (run acts).isActive 3 = true := by decide
  exact ⟨numbered, stored, active, ((exclusive_of_run numbered).2.2.1 3 address stored).2.2 active⟩

end RemoteCall.ChannelPool
