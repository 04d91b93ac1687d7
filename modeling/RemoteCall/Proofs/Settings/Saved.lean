import RemoteCall.Proofs.Lists
import RemoteCall.Proofs.Toml.Documents
import RemoteCall.Settings.Document
import RemoteCall.Settings.Problem

/-! # Settings that are saved and loaded

    The document of settings gives each field, by its name, the scalar as which
    it is seen, and a field that is set to its own scalar has its value again
    (`Field.keep_text` and its like).  A document may leave out sections and
    keys (`Selection`).  Read from the defaults on, it then gives the fields
    that were kept, and the others keep their defaults (`Settings.onto`).

    Lengths of time are written in whole milliseconds and numbers in 63 bits, so
    that this holds of settings without a finer length of time or a greater
    number (`IsStorable`, `readsBack_of_isStorable`).  Nothing but that what is
    written is read is used of TOML (`Library.Lawful`). -/

namespace RemoteCall

/-- Whole milliseconds, as many as a document can tell. -/
def Duration.IsWhole (d : Duration) : Prop :=
  ∃ n < 2 ^ 63, d = .ofMillis n

namespace Settings

open Toml

/-! ## Fields that are kept -/

theorem foldlM_cons_ok {σ α : Type} {f : σ → α → Except Flaw σ} {a : α} {items : List α}
    {t u : σ} {result : Except Flaw σ} (first : f t a = .ok u)
    (rest : items.foldlM f u = result) : (a :: items).foldlM f t = result := by
  rw [List.foldlM_cons, first]
  exact rest

namespace Field

variable {σ τ : Type} {kept : String → Bool} {s t : σ} {name : String}

/-- Sets a field to the value that it has in some state, if its name is kept. -/
def keep (kept : String → Bool) (s t : σ) (field : Field σ) : Except Flaw σ :=
  if kept field.name then field.set (field.get s) t else .ok t

theorem keep_eq {α : Type} {field : Field σ} {get : σ → α} {set : α → σ → σ}
    (own : field.set (field.get s) t = .ok (set (get s) t)) (unchanged : set (get t) t = t) :
    field.keep kept s t = .ok (set (if kept field.name then get s else get t) t) := by
  rw [keep]
  split
  · exact own
  · rw [unchanged]

theorem keep_text {get : σ → String} {set : String → σ → σ} (unchanged : set (get t) t = t) :
    (text name get set).keep kept s t = .ok (set (if kept name then get s else get t) t) :=
  keep_eq rfl unchanged

theorem keep_boolean {get : σ → Bool} {set : Bool → σ → σ} (unchanged : set (get t) t = t) :
    (boolean name get set).keep kept s t = .ok (set (if kept name then get s else get t) t) :=
  keep_eq rfl unchanged

theorem keep_level {get : σ → Level} {set : Level → σ → σ} (unchanged : set (get t) t = t) :
    (level name get set).keep kept s t = .ok (set (if kept name then get s else get t) t) := by
  refine keep_eq ?_ unchanged
  simp only [level, Level.ofText?_name]

theorem natBelow_set_get {bound : Nat} {get : σ → Nat} {set : Nat → σ → σ}
    (less : get s < bound) :
    (natBelow bound name get set).set (.integer (get s)) t = .ok (set (get s) t) := by
  have within : (0 ≤ (get s : Int) && (get s : Int) < bound) = true := by
    simpa using less
  exact if_pos within

theorem keep_natBelow {bound : Nat} {get : σ → Nat} {set : Nat → σ → σ} (less : get s < bound)
    (unchanged : set (get t) t = t) :
    (natBelow bound name get set).keep kept s t
      = .ok (set (if kept name then get s else get t) t) :=
  keep_eq (natBelow_set_get less) unchanged

theorem keep_duration {get : σ → Duration} {set : Duration → σ → σ} (whole : (get s).IsWhole)
    (unchanged : set (get t) t = t) :
    (duration name get set).keep kept s t
      = .ok (set (if kept name then get s else get t) t) := by
  obtain ⟨n, less, same⟩ := whole
  have millis : (get s).millis = n := by rw [same, Duration.millis_ofMillis]
  have again : Duration.ofMillis (get s).millis = get s := by rw [millis, same]
  have own := @natBelow_set_get σ s t name (2 ^ 64) (fun s => (get s).millis)
    (fun n => set (.ofMillis n)) (by omega)
  rw [again] at own
  exact keep_eq own unchanged

/-- A part of a state can be read and replaced, and nothing else changes with it. -/
structure IsPart (get : τ → σ) (set : σ → τ → τ) : Prop where
  get_set : ∀ u t, get (set u t) = u
  set_set : ∀ u v t, set u (set v t) = set u t
  set_get : ∀ t, set (get t) t = t

variable {get : τ → σ} {set : σ → τ → τ}

theorem keep_lift (isPart : IsPart get set) (field : Field σ) (s t : τ) :
    (lift get set field).keep kept s t
      = (field.keep kept (get s) (get t)).map fun u => set u t := by
  by_cases isKept : kept field.name = true
  · rw [keep, keep, if_pos isKept, if_pos (show kept (lift get set field).name = true from isKept)]
    rfl
  · rw [keep, keep, if_neg isKept,
      if_neg (show ¬ kept (lift get set field).name = true from isKept)]
    exact congrArg Except.ok (isPart.set_get t).symm

/-- Keeping fields of a part changes the part alone. -/
theorem foldlM_keep_lift (isPart : IsPart get set) {fields : List (Field σ)} {s t : τ} {u : σ}
    (kept_part : fields.foldlM (keep kept (get s)) (get t) = .ok u) :
    (fields.map (lift get set)).foldlM (keep kept s) t = .ok (set u t) := by
  induction fields generalizing t with
  | nil =>
      obtain rfl := Except.ok.inj kept_part
      exact congrArg Except.ok (isPart.set_get t).symm
  | cons field fields ih =>
      rw [List.foldlM_cons] at kept_part
      rw [List.map_cons, List.foldlM_cons, keep_lift isPart]
      cases first : field.keep kept (get s) (get t) with
      | error flaw =>
          rw [first] at kept_part
          exact nomatch kept_part
      | ok v =>
          rw [first] at kept_part
          have rest : fields.foldlM (keep kept (get s)) (get (set v t)) = .ok u := by
            rw [isPart.get_set]
            exact kept_part
          have again := ih rest
          rw [isPart.set_set] at again
          exact again

end Field

/-! ## Parts of settings -/

/-- The settings of a server, with those under the kept names from `s` and the others from `t`. -/
def Server.onto (kept : String → Bool) (s t : Server) : Server where
  host := if kept "host" then s.host else t.host
  port := if kept "port" then s.port else t.port
  weight := if kept "weight" then s.weight else t.weight
  idleTimeout := if kept "idle_read_timeout" then s.idleTimeout else t.idleTimeout
  workers := if kept "worker_threads" then s.workers else t.workers
  shutdownTimeout := if kept "shutdown_timeout" then s.shutdownTimeout else t.shutdownTimeout

/-- The settings of a client, as `Server.onto` has those of a server. -/
def Client.onto (kept : String → Bool) (s t : Client) : Client where
  connectTimeout := if kept "connect_timeout" then s.connectTimeout else t.connectTimeout
  heartbeatInterval :=
    if kept "heartbeat_interval" then s.heartbeatInterval else t.heartbeatInterval
  requestTimeout := if kept "request_timeout" then s.requestTimeout else t.requestTimeout
  codec := if kept "codec" then s.codec else t.codec
  compression := if kept "compress" then s.compression else t.compression
  strategy := if kept "load_balance" then s.strategy else t.strategy

/-- The settings of the directory, as `Server.onto` has those of a server. -/
def Directory.onto (kept : String → Bool) (s t : Directory) : Directory where
  address := if kept "address" then s.address else t.address
  root := if kept "root_path" then s.root else t.root

/-- The settings of the transport, as `Server.onto` has those of a server. -/
def Transport.onto (kept : String → Bool) (s t : Transport) : Transport where
  maxFrameLength := if kept "max_frame_length" then s.maxFrameLength else t.maxFrameLength

/-- The settings of logging, as `Server.onto` has those of a server. -/
def Logging.onto (kept : String → Bool) (s t : Logging) : Logging where
  appName := if kept "app_name" then s.appName else t.appName
  level := if kept "log_level" then s.level else t.level
  isJson := if kept "json_format" then s.isJson else t.isJson

variable {kept : String → Bool}

theorem Server.foldlM_keep {s : Server} (idle : s.idleTimeout.IsWhole)
    (shutdown : s.shutdownTimeout.IsWhole) (t : Server) :
    Server.fields.foldlM (Field.keep kept s) t = .ok (s.onto kept t) := by
  refine foldlM_cons_ok (Field.keep_text rfl) ?_
  refine foldlM_cons_ok (Field.keep_natBelow s.port.toNat_lt (by simp)) ?_
  refine foldlM_cons_ok (Field.keep_natBelow s.weight.toNat_lt (by simp)) ?_
  refine foldlM_cons_ok (Field.keep_duration idle rfl) ?_
  refine foldlM_cons_ok (Field.keep_natBelow s.workers.toNat_lt (by simp)) ?_
  refine foldlM_cons_ok (Field.keep_duration shutdown rfl) ?_
  refine congrArg Except.ok ?_
  simp only [Server.onto, apply_ite UInt16.ofNat, apply_ite UInt32.ofNat, apply_ite UInt64.ofNat,
    UInt16.ofNat_toNat, UInt32.ofNat_toNat, UInt64.ofNat_toNat]

theorem Client.foldlM_keep {s : Client} (connect : s.connectTimeout.IsWhole)
    (heartbeat : s.heartbeatInterval.IsWhole) (request : s.requestTimeout.IsWhole) (t : Client) :
    Client.fields.foldlM (Field.keep kept s) t = .ok (s.onto kept t) := by
  refine foldlM_cons_ok (Field.keep_duration connect rfl) ?_
  refine foldlM_cons_ok (Field.keep_duration heartbeat rfl) ?_
  refine foldlM_cons_ok (Field.keep_duration request rfl) ?_
  refine foldlM_cons_ok (Field.keep_text rfl) ?_
  refine foldlM_cons_ok (Field.keep_text rfl) ?_
  exact foldlM_cons_ok (Field.keep_text rfl) rfl

theorem Directory.foldlM_keep (s t : Directory) :
    Directory.fields.foldlM (Field.keep kept s) t = .ok (s.onto kept t) := by
  refine foldlM_cons_ok (Field.keep_text rfl) ?_
  exact foldlM_cons_ok (Field.keep_text rfl) rfl

theorem Transport.foldlM_keep (s t : Transport) :
    Transport.fields.foldlM (Field.keep kept s) t = .ok (s.onto kept t) := by
  refine foldlM_cons_ok (Field.keep_natBelow s.maxFrameLength.toNat_lt (by simp)) ?_
  refine congrArg Except.ok ?_
  simp only [Transport.onto, apply_ite UInt64.ofNat, UInt64.ofNat_toNat]

theorem Logging.foldlM_keep (s t : Logging) :
    Logging.fields.foldlM (Field.keep kept s) t = .ok (s.onto kept t) := by
  refine foldlM_cons_ok (Field.keep_text rfl) ?_
  refine foldlM_cons_ok (Field.keep_level rfl) ?_
  exact foldlM_cons_ok (Field.keep_boolean rfl) rfl

/-! ## Documents of what is kept -/

/-- A choice of sections, and of keys in each. -/
structure Selection where
  hasSection : String → Bool
  hasKey : String → String → Bool

namespace Selection

/-- Whether a key of a section is kept. -/
def keeps (selection : Selection) (part key : String) : Bool :=
  selection.hasSection part && selection.hasKey part key

/-- The sections of a document that are kept, with the entries that are kept in each. -/
def apply (selection : Selection) (document : List (String × List (String × Scalar))) :
    List (String × List (String × Scalar)) :=
  (document.filter fun part => selection.hasSection part.1).map fun part =>
    (part.1, part.2.filter fun entry => selection.hasKey part.1 entry.1)

/-- The choice of everything. -/
def all : Selection where
  hasSection _ := true
  hasKey _ _ := true

theorem apply_all (document : List (String × List (String × Scalar))) :
    all.apply document = document := by
  simp [apply, all]

end Selection

/-- The settings with those fields from `s` that are kept, and the others from `t`. -/
def onto (selection : Selection) (s t : Settings) : Settings where
  server := s.server.onto (selection.keeps "server") t.server
  client := s.client.onto (selection.keeps "client") t.client
  directory := s.directory.onto (selection.keeps "registry") t.directory
  transport := s.transport.onto (selection.keeps "transport") t.transport
  logging := s.logging.onto (selection.keeps "logging") t.logging

theorem onto_all (s t : Settings) : s.onto .all t = s :=
  rfl

theorem readEntries_cons {fields : List (Field Settings)} {field : Field Settings} {name : String}
    (found : fields.find? (·.name = name) = some field) (value : Value) (entries : Entries)
    (t : Settings) :
    readEntries fields t ((name, value) :: entries)
      = field.read t value >>= fun u => readEntries fields u entries := by
  rw [readEntries, List.foldlM_cons]
  simp only [found]
  rfl

/-- The entries of a section set the fields that are kept. -/
theorem readEntries_filter {fields own : List (Field Settings)}
    (find : ∀ field ∈ own, fields.find? (·.name = field.name) = some field) (s t : Settings) :
    readEntries fields t
        (((own.map fun f => (f.name, f.get s)).filter fun entry => kept entry.1).map scalarOf)
      = own.foldlM (Field.keep kept s) t := by
  induction own generalizing t with
  | nil => rfl
  | cons field own ih =>
      have ih := ih fun field mem => find field (.tail _ mem)
      rw [List.map_cons, List.filter_cons, List.foldlM_cons, Field.keep]
      by_cases isKept : kept field.name = true
      · rw [if_pos isKept, if_pos isKept, List.map_cons]
        exact (readEntries_cons (find field (.head _)) _ _ t).trans (bind_congr ih)
      · rw [if_neg isKept, if_neg isKept]
        exact ih t

/-- No section has two fields of one name, and no two sections have one name. -/
theorem nodup_sections : (sections.map (·.1)).Nodup ∧ ∀ part ∈ sections,
    (part.2.map (·.name)).Nodup := by
  decide +kernel

/-- The names of sections and fields need no quotes. -/
theorem bare_sections : ∀ part ∈ sections, IsBareKey part.1.toList
    ∧ ∀ field ∈ part.2, IsBareKey field.name.toList := by
  decide +kernel

/-- What is kept of a section are some of its fields. -/
theorem Selection.mem_apply {selection : Selection} {s : Settings}
    {own : String × List (String × Scalar)} (mem : own ∈ selection.apply s.scalars) :
    ∃ part ∈ sections, own.1 = part.1
      ∧ own.2.Sublist (part.2.map fun field => (field.name, field.get s)) := by
  obtain ⟨whole, kept, rfl⟩ := List.mem_map.mp mem
  obtain ⟨part, known, rfl⟩ := List.mem_map.mp (List.mem_filter.mp kept).1
  exact ⟨part, known, rfl, List.filter_sublist⟩

theorem Selection.isNamed_apply (selection : Selection) (s : Settings) :
    IsNamed (selection.apply s.scalars) where
  bare own mem := by
    obtain ⟨part, known, name, fields⟩ := mem_apply mem
    obtain ⟨isKey, bare⟩ := bare_sections part known
    refine ⟨name ▸ isKey, fun entry mem' => ?_⟩
    obtain ⟨field, own, rfl⟩ := List.mem_map.mp (fields.subset mem')
    exact bare field own
  sections := by
    have some : ((selection.apply s.scalars).map (·.1)).Sublist (s.scalars.map (·.1)) := by
      rw [apply, List.map_map]
      exact List.filter_sublist.map _
    have names : s.scalars.map (·.1) = Settings.sections.map (·.1) := by
      rw [scalars, List.map_map]
      rfl
    exact some.nodup (names ▸ nodup_sections.1)
  keys own mem := by
    obtain ⟨part, known, -, fields⟩ := mem_apply mem
    have some := fields.map (·.1)
    rw [List.map_map] at some
    exact some.nodup (nodup_sections.2 part known)

theorem foldlM_keep_none (fields : List (Field Settings)) (s t : Settings) :
    fields.foldlM (Field.keep (fun _ => false) s) t = .ok t := by
  induction fields with
  | nil => rfl
  | cons field fields ih => exact foldlM_cons_ok (if_neg Bool.false_ne_true) ih

/-- Sets the fields that a document gives, as `ofEntries` does over the defaults. -/
def readOver (t : Settings) (entries : Entries) : Except Flaw Settings :=
  entries.foldlM (fun t (name, value) =>
    match sections.lookup name with
    | some fields => readSection fields t value
    | none => .ok t) t

theorem readOver_cons {name : String} {fields : List (Field Settings)}
    (found : sections.lookup name = some fields) (value : Value) (entries : Entries)
    (t : Settings) :
    readOver t ((name, value) :: entries)
      = readSection fields t value >>= fun u => readOver u entries := by
  rw [readOver, List.foldlM_cons]
  simp only [found]
  rfl

/-- The sections that are kept set the fields that are kept in them. -/
theorem readOver_apply (selection : Selection) (s : Settings)
    {own : List (String × List (Field Settings))} (known : ∀ part ∈ own, part ∈ sections)
    (t : Settings) :
    readOver t ((selection.apply (own.map fun part =>
        (part.1, part.2.map fun f => (f.name, f.get s)))).map tableOf)
      = own.foldlM (fun t part => part.2.foldlM (Field.keep (selection.keeps part.1) s) t) t := by
  induction own generalizing t with
  | nil => rfl
  | cons part own ih =>
      have ih := ih fun part mem => known part (.tail _ mem)
      have mem := known part (.head _)
      have found : sections.lookup part.1 = some part.2 :=
        List.lookup_eq_some_of_unique mem fun entry mem' same =>
          congrArg Prod.snd (List.inj_on_of_nodup_map nodup_sections.1 mem' mem same)
      rw [List.map_cons, Selection.apply, List.filter_cons, List.foldlM_cons]
      by_cases isKept : selection.hasSection part.1 = true
      · have keeps : selection.keeps part.1 = selection.hasKey part.1 :=
          funext fun key => by rw [Selection.keeps, isKept, Bool.true_and]
        have find (field) (mem' : field ∈ part.2) :=
          List.find?_eq_some_of_mem (nodup_sections.2 part mem) mem'
        have read := @readEntries_filter (selection.hasKey part.1) _ _ find s t
        rw [if_pos isKept, List.map_cons, List.map_cons, keeps, ← read]
        exact (readOver_cons found _ _ t).trans (bind_congr ih)
      · have keeps : selection.keeps part.1 = fun _ => false :=
          funext fun key => by
            rw [Selection.keeps, Bool.eq_false_iff.mpr isKept, Bool.false_and]
        rw [if_neg isKept, keeps, foldlM_keep_none]
        exact ih t

theorem ofEntries_apply (selection : Selection) (s : Settings) :
    ofEntries ((selection.apply s.scalars).map tableOf)
      = sections.foldlM (fun t part => part.2.foldlM (Field.keep (selection.keeps part.1) s) t)
          {} :=
  readOver_apply selection s (fun _ mem => mem) {}

/-! ## Fields that can be written -/

/-- A document can tell the value of a field. -/
def Field.InRange {σ : Type} (s : σ) (field : Field σ) : Prop :=
  (field.get s).InRange

theorem inRange_nat {n : Nat} (less : n < 2 ^ 63) : (Scalar.integer n).InRange :=
  ⟨by omega, by omega⟩

theorem inRange_millis {d : Duration} (whole : d.IsWhole) : (Scalar.integer d.millis).InRange := by
  obtain ⟨n, less, rfl⟩ := whole
  rw [Duration.millis_ofMillis]
  exact inRange_nat less

theorem Server.inRange {s : Server} (idle : s.idleTimeout.IsWhole)
    (workers : s.workers.toNat < 2 ^ 63) (shutdown : s.shutdownTimeout.IsWhole) :
    ∀ field ∈ Server.fields, field.InRange s := by
  have port : s.port.toNat < 2 ^ 63 := Nat.lt_trans s.port.toNat_lt (by decide)
  have weight : s.weight.toNat < 2 ^ 63 := Nat.lt_trans s.weight.toNat_lt (by decide)
  simp only [Server.fields, List.forall_mem_cons]
  exact ⟨trivial, inRange_nat port, inRange_nat weight, inRange_millis idle,
    inRange_nat workers, inRange_millis shutdown, List.forall_mem_nil _⟩

theorem Client.inRange {s : Client} (connect : s.connectTimeout.IsWhole)
    (heartbeat : s.heartbeatInterval.IsWhole) (request : s.requestTimeout.IsWhole) :
    ∀ field ∈ Client.fields, field.InRange s := by
  simp only [Client.fields, List.forall_mem_cons]
  exact ⟨inRange_millis connect, inRange_millis heartbeat, inRange_millis request, trivial,
    trivial, trivial, List.forall_mem_nil _⟩

theorem Directory.inRange (s : Directory) : ∀ field ∈ Directory.fields, field.InRange s := by
  simp only [Directory.fields, List.forall_mem_cons]
  exact ⟨trivial, trivial, List.forall_mem_nil _⟩

theorem Transport.inRange {s : Transport} (length : s.maxFrameLength.toNat < 2 ^ 63) :
    ∀ field ∈ Transport.fields, field.InRange s := by
  simp only [Transport.fields, List.forall_mem_cons]
  exact ⟨inRange_nat length, List.forall_mem_nil _⟩

theorem Logging.inRange (s : Logging) : ∀ field ∈ Logging.fields, field.InRange s := by
  simp only [Logging.fields, List.forall_mem_cons]
  exact ⟨trivial, trivial, trivial, List.forall_mem_nil _⟩

/-! ## What is loaded -/

/-- Settings that a document holds in full. -/
structure IsStorable (s : Settings) : Prop where
  idleTimeout : s.server.idleTimeout.IsWhole
  workers : s.server.workers.toNat < 2 ^ 63
  shutdownTimeout : s.server.shutdownTimeout.IsWhole
  connectTimeout : s.client.connectTimeout.IsWhole
  heartbeatInterval : s.client.heartbeatInterval.IsWhole
  requestTimeout : s.client.requestTimeout.IsWhole
  maxFrameLength : s.transport.maxFrameLength.toNat < 2 ^ 63

theorem IsStorable.inRange {s : Settings} (storable : s.IsStorable) :
    ∀ part ∈ sections, ∀ field ∈ part.2, field.InRange s := by
  simp only [sections, List.forall_mem_cons, List.forall_mem_map]
  exact ⟨Server.inRange storable.idleTimeout storable.workers storable.shutdownTimeout,
    Client.inRange storable.connectTimeout storable.heartbeatInterval storable.requestTimeout,
    Directory.inRange s.directory, Transport.inRange storable.maxFrameLength,
    Logging.inRange s.logging, List.forall_mem_nil _⟩

/-- The fields that are kept, taken section by section, make the settings that are kept. -/
theorem IsStorable.foldlM_keep {s : Settings} (storable : s.IsStorable) (selection : Selection)
    (t : Settings) :
    sections.foldlM (fun t part => part.2.foldlM (Field.keep (selection.keeps part.1) s) t) t
      = .ok (s.onto selection t) := by
  refine foldlM_cons_ok (Field.foldlM_keep_lift (by constructor <;> intros <;> rfl)
    (Server.foldlM_keep storable.idleTimeout storable.shutdownTimeout t.server)) ?_
  refine foldlM_cons_ok (Field.foldlM_keep_lift (by constructor <;> intros <;> rfl)
    (Client.foldlM_keep storable.connectTimeout storable.heartbeatInterval
      storable.requestTimeout t.client)) ?_
  refine foldlM_cons_ok (Field.foldlM_keep_lift (by constructor <;> intros <;> rfl)
    (Directory.foldlM_keep s.directory t.directory)) ?_
  refine foldlM_cons_ok (Field.foldlM_keep_lift (by constructor <;> intros <;> rfl)
    (Transport.foldlM_keep s.transport t.transport)) ?_
  exact foldlM_cons_ok (Field.foldlM_keep_lift (by constructor <;> intros <;> rfl)
    (Logging.foldlM_keep s.logging t.logging)) rfl

/-- A library reads what it writes: sections whose names may stand without quotes, in which no name is
given twice, of values that a document can tell. -/
def Library.Lawful (library : Library) : Prop :=
  ∀ document, IsNamed document → (∀ own ∈ document, ∀ entry ∈ own.2, entry.2.InRange) →
    ∃ text, library.write? document = some text ∧ library.read? text = some (document.map tableOf)

theorem lawful_toml : Library.toml.Lawful := by
  intro document named each
  obtain ⟨text, written⟩ := exists_write? each
  exact ⟨text, written, read?_of_write? named written⟩

variable {library : Library}

/-- What is kept of settings can be written, and is read again over the defaults. -/
theorem IsStorable.loads {s : Settings} (storable : s.IsStorable) (lawful : library.Lawful)
    (selection : Selection) :
    ∃ text, library.write? (selection.apply s.scalars) = some text
      ∧ library.load text = .ok (s.onto selection {}) := by
  have each (own) (mem : own ∈ selection.apply s.scalars) (entry) (mem' : entry ∈ own.2) :
      entry.2.InRange := by
    obtain ⟨part, known, -, fields⟩ := Selection.mem_apply mem
    obtain ⟨field, mem'', rfl⟩ := List.mem_map.mp (fields.subset mem')
    exact storable.inRange part known field mem''
  obtain ⟨text, written, read⟩ := lawful _ (selection.isNamed_apply s) each
  refine ⟨text, written, ?_⟩
  rw [Library.load, read]
  show (ofEntries ((selection.apply s.scalars).map tableOf)).mapError _ = _
  rw [ofEntries_apply, storable.foldlM_keep]
  rfl

/-- Saved settings are loaded as they were, and have the problems that they had. From a document
that keeps some sections and keys of them, these are loaded, and the defaults for all others. -/
structure ReadsBack (library : Library) (s : Settings) : Prop where
  whole : ∃ text, library.save s = .ok text ∧ library.load text = .ok s
    ∧ library.loadFile (some (Bytes.ofText text)) = .ok s
  problems : ∀ text read, library.save s = .ok text → library.load text = .ok read →
    read.problems = s.problems
  part : ∀ selection : Selection, ∃ text, library.write? (selection.apply s.scalars) = some text
    ∧ library.load text = .ok (s.onto selection {})

/-- Settings that a document holds in full are read back by any library that reads what it writes. -/
theorem Library.Lawful.readsBack (lawful : library.Lawful) {s : Settings}
    (storable : s.IsStorable) : ReadsBack library s := by
  obtain ⟨text, written, read⟩ := storable.loads lawful .all
  rw [Selection.apply_all] at written
  rw [onto_all] at read
  have saved : library.save s = .ok text := by rw [Library.save, written]
  refine ⟨⟨text, saved, read, ?_⟩, ?_, storable.loads lawful⟩
  · rw [Library.loadFile, Option.bind_some, Utf8.decode_ofText]
    exact read
  · intro text' read' saved' loaded
    obtain rfl := Except.ok.inj (saved.symm.trans saved')
    have same : read' = s := Except.ok.inj (loaded.symm.trans read)
    rw [same]

theorem readsBack_of_isStorable {s : Settings} (storable : s.IsStorable) :
    ReadsBack .toml s :=
  lawful_toml.readsBack storable

/-- Settings with the greatest numbers, and with texts that hold quotes, backslashes, ends of lines
and other characters that are written as escapes. -/
def awkward : Settings where
  server := { host := "\"a\" and 'b' \\ \x00", port := 0, idleTimeout := .ofMillis (2 ^ 63 - 1),
              workers := .ofNat (2 ^ 63 - 1) }
  client := { requestTimeout := .ofMillis 0, codec := "\n\"\"\"\"\n'''\n", strategy := "\r\n\t\\" }
  directory := { address := "", root := "\x7f\x1b[0m" }
  transport := { maxFrameLength := .ofNat (2 ^ 63 - 1) }
  logging := { appName := "名前 = \"\" # ]", level := .trace, isJson := true }

theorem readsBack_awkward : awkward.IsStorable ∧ ReadsBack .toml awkward := by
  have storable : awkward.IsStorable :=
    { idleTimeout := ⟨2 ^ 63 - 1, by decide, rfl⟩
      workers := by decide
      shutdownTimeout := ⟨10000, by decide, rfl⟩
      connectTimeout := ⟨5000, by decide, rfl⟩
      heartbeatInterval := ⟨15000, by decide, rfl⟩
      requestTimeout := ⟨0, by decide, rfl⟩
      maxFrameLength := by decide }
  exact ⟨storable, readsBack_of_isStorable storable⟩

end Settings

end RemoteCall
