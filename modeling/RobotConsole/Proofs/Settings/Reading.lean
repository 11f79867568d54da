import RobotConsole.Proofs.Settings.Record
import RobotConsole.Proofs.Toml.Distinct
import RobotConsole.Settings.Basic

/-!
What a settings file says.  The fields of the three records are declared here, with their bounds and
their standard values; the store takes a table of values of any kind.  A document whose sections are
tables is read exactly when its entries fit these declarations, but that a table of the store which
names a time must name one.  The settings are then what the document says and else standard, each
field told by its own entry alone.
-/

namespace RobotConsole.Settings

def networkFields : List (Declared NetworkSettings) :=
  [⟨"interface", .text, some (.text "eth0"), fun n => some (.text n.interface)⟩,
   ⟨"channel", .whole (2 ^ 32), some (.integer 0), fun n => some (.integer n.channel.toNat)⟩,
   ⟨"primitive_port", .whole (2 ^ 16), some (.integer 42070),
     fun n => some (.integer n.primitivePort.toNat)⟩,
   ⟨"status_port", .whole (2 ^ 16), some (.integer 42071),
     fun n => some (.integer n.statusPort.toNat)⟩,
   ⟨"snapshot_port", .whole (2 ^ 16), some (.integer 42077),
     fun n => some (.integer n.snapshotPort.toNat)⟩,
   ⟨"snapshot_buffer_size", .whole (2 ^ 64), some (.integer 5),
     fun n => some (.integer n.snapshotBufferSize)⟩]

def displayFields : List (Declared DisplaySettings) :=
  [⟨"refresh_interval_ms", .whole (2 ^ 64), some (.integer 250),
     fun d => some (.integer d.refreshMillis)⟩,
   ⟨"trail_length", .whole (2 ^ 64), some (.integer 60),
     fun d => some (.integer d.trailLength)⟩]

def robotFields : List (Declared RobotSettings) :=
  [⟨"restart_command", .text, none, fun r => r.restartCommand.map .text⟩]

theorem declares_network : networkLayout.Declares networkFields standardNetwork where
  names := rfl
  meets := by
    simp only [networkLayout, port, List.forall_mem_cons]
    refine ⟨Layout.meets_text ?_ ?_, Layout.meets_whole ?_ ?_, Layout.meets_whole ?_ ?_,
      Layout.meets_whole ?_ ?_, Layout.meets_whole ?_ ?_, Layout.meets_whole ?_ ?_, nofun⟩
    -- within its bounds a number comes back from the machine word that holds it
    all_goals simp +contextual [Declared.Admits, networkFields, Nat.mod_eq_of_lt]
  standard := by
    simp only [networkFields, List.forall_mem_cons]
    exact ⟨rfl, rfl, rfl, rfl, rfl, rfl, nofun⟩

theorem declares_display : displayLayout.Declares displayFields standardDisplay where
  names := rfl
  meets := by
    simp only [displayLayout, List.forall_mem_cons]
    refine ⟨Layout.meets_whole ?_ ?_, Layout.meets_whole ?_ ?_, nofun⟩
    all_goals simp [Declared.Admits, displayFields]
  standard := by
    simp only [displayFields, List.forall_mem_cons]
    exact ⟨rfl, rfl, nofun⟩

theorem declares_robot : robotLayout.Declares robotFields standardRobot where
  names := rfl
  meets := by
    simp only [robotLayout, List.forall_mem_cons]
    refine ⟨Layout.meets_text ?_ ?_, nofun⟩
    all_goals simp [Declared.Admits, robotFields]
  standard := by
    simp only [robotFields, List.forall_mem_cons]
    exact ⟨rfl, nofun⟩

def sections : List String := ["network", "display", "robot", "store"]

/-- The entries of the table of a name; without such a table there are none. -/
def sectionOf (entries : List (String × Toml)) (name : String) : List (String × Toml) :=
  match entries.lookup name with
  | some (.table es) => es
  | _ => []

/-- An entry of a document that can be read: a table of one of the four names, with fields that its
record declares, or in the store with values of any kind. -/
def Acceptable (e : String × Toml) : Prop :=
  ∃ es, e.2 = .table es ∧
    (e.1 = "network" ∧ (∀ e ∈ es, Declared.Admits networkFields e) ∨
      e.1 = "display" ∧ (∀ e ∈ es, Declared.Admits displayFields e) ∨
      e.1 = "robot" ∧ (∀ e ∈ es, Declared.Admits robotFields e) ∨
      e.1 = "store" ∧ ∃ kept, Toml.KeptEntries es kept)

/-- The settings are what the document says, and standard where it says nothing. -/
structure Follows (entries : List (String × Toml)) (s : Settings) : Prop where
  network : Declared.Shows networkFields (sectionOf entries "network") s.network
  display : Declared.Shows displayFields (sectionOf entries "display") s.display
  robot : Declared.Shows robotFields (sectionOf entries "robot") s.robot
  store : Toml.KeptEntries (sectionOf entries "store") s.store

section Document

variable {entries : List (String × Toml)} {s : Settings}

/-- Where the sections are tables, a document is read when each of its entries can be. -/
theorem exists_ofEntries_iff (htables : ∀ e ∈ entries, e.1 ∈ sections → e.2.IsTable) :
    (∃ s, ofEntries entries = .ok s) ↔ ∀ e ∈ entries, Acceptable e := by
  refine Layout.exists_readEntries_iff ?_ ?_ standard
  · rintro ⟨name, v⟩ ⟨es, -, h⟩
    change name ∈ sections
    rcases h with ⟨rfl, -⟩ | ⟨rfl, -⟩ | ⟨rfl, -⟩ | ⟨rfl, -⟩ <;> decide
  · intro f hf v hv a
    have hname : f.name ∈ sections := List.mem_map_of_mem (f := Layout.Field.name) hf
    obtain ⟨es, rfl⟩ := (htables _ hv hname).exists_eq
    simp only [layout, List.mem_cons, List.not_mem_nil, or_false] at hf
    rcases hf with rfl | rfl | rfl | rfl <;> rw [Layout.exists_field_put_iff]
    · refine (declares_network.exists_readEntries_iff es a.network).trans ?_
      simp [Acceptable, Layout.field]
    · refine (declares_display.exists_readEntries_iff es a.display).trans ?_
      simp [Acceptable, Layout.field]
    · refine (declares_robot.exists_readEntries_iff es a.robot).trans ?_
      simp [Acceptable, Layout.field]
    · refine (exists_congr fun kept => Toml.entriesWithTimes_eq_ok_iff es kept).trans ?_
      simp [Acceptable, Layout.field]

/-- A record of the settings shows what its section says, when it was read from the section or is
the standard one for want of it. -/
theorem shows_sectionOf {α : Type} {l : Layout α} {ds : List (Declared α)} {standard a : α}
    {name : String} (hl : l.Declares ds standard) (hdistinct : (Toml.table entries).Distinct)
    (htable : ∀ v, (name, v) ∈ entries → v.IsTable)
    (h : (∃ v, entries.lookup name = some v ∧ l.read standard v = .ok a) ∨
      entries.lookup name = none ∧ a = standard) :
    Declared.Shows ds (sectionOf entries name) a := by
  obtain ⟨v, hlookup, hread⟩ | ⟨hlookup, rfl⟩ := h
  · have hmem := Toml.mem_of_lookup hlookup
    obtain ⟨es, rfl⟩ := (htable v hmem).exists_eq
    rw [sectionOf, hlookup]
    exact hl.shows_readEntries (hdistinct.nodes _ hmem).keys hread
  · rw [sectionOf, hlookup]
    exact hl.shows_standard

/-- The store is kept as its section says, empty for want of it. -/
theorem keptEntries_sectionOf {store : List (String × Toml)}
    (htable : ∀ v, ("store", v) ∈ entries → v.IsTable)
    (h : (∃ v, entries.lookup "store" = some v ∧ v.asEntries = .ok store) ∨
      entries.lookup "store" = none ∧ store = []) :
    Toml.KeptEntries (sectionOf entries "store") store := by
  obtain ⟨v, hlookup, hread⟩ | ⟨hlookup, rfl⟩ := h
  · obtain ⟨es, rfl⟩ := (htable v (Toml.mem_of_lookup hlookup)).exists_eq
    rw [sectionOf, hlookup]
    exact (Toml.entriesWithTimes_eq_ok_iff es store).1 hread
  · rw [sectionOf, hlookup]
    exact .nil

theorem follows_of_ofEntries (hdistinct : (Toml.table entries).Distinct)
    (htables : ∀ e ∈ entries, e.1 ∈ sections → e.2.IsTable) (h : ofEntries entries = .ok s) :
    Follows entries s := by
  have hkeys := hdistinct.keys
  have htable : ∀ name ∈ sections, ∀ v, (name, v) ∈ entries → v.IsTable :=
    fun name hname v hv => htables (name, v) hv hname
  refine
    ⟨shows_sectionOf declares_network hdistinct (htable "network" (by decide))
      (Layout.get_readEntries "network" Settings.network
        (fun v old new => networkLayout.read old v = .ok new) ?_ ?_ hkeys h),
    shows_sectionOf declares_display hdistinct (htable "display" (by decide))
      (Layout.get_readEntries "display" Settings.display
        (fun v old new => displayLayout.read old v = .ok new) ?_ ?_ hkeys h),
    shows_sectionOf declares_robot hdistinct (htable "robot" (by decide))
      (Layout.get_readEntries "robot" Settings.robot
        (fun v old new => robotLayout.read old v = .ok new) ?_ ?_ hkeys h),
    keptEntries_sectionOf (htable "store" (by decide))
      (Layout.get_readEntries "store" Settings.store
        (fun v _ new => v.asEntries = .ok new) ?_ ?_ hkeys h)⟩
  -- each of the four fields puts its own part and no other
  all_goals simp +contextual [layout, Layout.field_put_eq_ok_iff]
  all_goals simp [Layout.field]

end Document

/-- The words of the command line as entries of the network table. -/
def wordsOf (interface : Option String) (channel : Option UInt32) : List (String × Toml) :=
  (interface.map fun i => ("interface", Toml.text i)).toList ++
    (channel.map fun c => ("channel", Toml.integer c.toNat)).toList

/-- The words of the command line come before what the settings were; all else stays. -/
structure Overridden (interface : Option String) (channel : Option UInt32) (s o : Settings) :
    Prop where
  network : ∀ d ∈ networkFields, d.shown o.network =
    ((wordsOf interface channel).lookup d.name).or (d.shown s.network)
  display : o.display = s.display
  robot : o.robot = s.robot
  store : o.store = s.store

theorem overridden_override (interface : Option String) (channel : Option UInt32) (s : Settings) :
    Overridden interface channel s (s.override interface channel) := by
  refine ⟨?_, rfl, rfl, rfl⟩
  cases interface <;> cases channel <;> simp [networkFields, wordsOf, override, List.lookup_cons]

theorem network_ext {a b : NetworkSettings} (h : ∀ d ∈ networkFields, d.shown a = d.shown b) :
    a = b := by
  simp only [networkFields, List.forall_mem_cons, Option.some.injEq, Toml.text.injEq,
    Toml.integer.injEq, Int.natCast_inj, UInt32.toNat_inj, UInt16.toNat_inj] at h
  obtain ⟨hinterface, hchannel, hprimitive, hstatus, hsnapshot, hbuffer, -⟩ := h
  cases a
  cases b
  simp_all

theorem display_ext {a b : DisplaySettings} (h : ∀ d ∈ displayFields, d.shown a = d.shown b) :
    a = b := by
  simp only [displayFields, List.forall_mem_cons, Option.some.injEq, Toml.integer.injEq,
    Int.natCast_inj] at h
  obtain ⟨hrefresh, htrail, -⟩ := h
  cases a
  cases b
  simp_all

theorem robot_ext {a b : RobotSettings} (h : ∀ d ∈ robotFields, d.shown a = d.shown b) :
    a = b := by
  obtain ⟨a⟩ := a
  obtain ⟨b⟩ := b
  simp only [robotFields, List.forall_mem_cons] at h
  rw [Option.map_injective (fun s t => Toml.text.inj) h.1]

/-- A document says all of the settings: the declared fields and the store leave nothing open. -/
theorem Follows.unique {entries : List (String × Toml)} {s t : Settings} (hs : Follows entries s)
    (ht : Follows entries t) : s = t := by
  have hnetwork := network_ext fun d hd => (hs.network d hd).trans (ht.network d hd).symm
  have hdisplay := display_ext fun d hd => (hs.display d hd).trans (ht.display d hd).symm
  have hrobot := robot_ext fun d hd => (hs.robot d hd).trans (ht.robot d hd).symm
  have hstore : s.store = t.store := by
    have h := (Toml.entriesWithTimes_eq_ok_iff _ _).2 hs.store
    rw [(Toml.entriesWithTimes_eq_ok_iff _ _).2 ht.store] at h
    exact (Except.ok.inj h).symm
  cases s
  cases t
  simp_all

/-- A document whose sections are tables is read when its entries are acceptable.  It gives the settings
field by field, and nothing else does; the words of the command line then change their two fields. -/
theorem reads_documents {cs : List Char} {entries : List (String × Toml)}
    (hdoc : Toml.ofText? cs = some entries)
    (htables : ∀ e ∈ entries, e.1 ∈ sections → e.2.IsTable) :
    ((∃ s, ofText cs = .ok s) ↔ ∀ e ∈ entries, Acceptable e) ∧
      ∀ s, ofText cs = .ok s →
        Follows entries s ∧ (∀ t, Follows entries t → t = s) ∧
        ((∀ e ∈ sectionOf entries "store", e.2.Plain) → s.store = sectionOf entries "store") ∧
        ∀ interface channel, Overridden interface channel s (s.override interface channel) := by
  have hread : ∀ s, ofText cs = .ok s ↔ ofEntries entries = .ok s := by
    intro s
    rw [ofText, hdoc]
    cases h : ofEntries entries <;> simp [h, Except.mapError]
  refine ⟨?_, fun s hs => ?_⟩
  · simp only [hread]
    exact exists_ofEntries_iff htables
  · have hfollows := follows_of_ofEntries (Toml.distinct_of_ofText? hdoc) htables ((hread s).1 hs)
    refine ⟨hfollows, fun t ht => ht.unique hfollows, fun hplain => ?_,
      fun interface channel => overridden_override interface channel s⟩
    exact (Toml.keptEntries_iff_of_plain hplain).1 hfollows.store

/-- A document with two of the four tables and one field of the six. -/
def channelDocument : List Char := "[network]\nchannel = 7\n\n[store]\nkick = 3\n".toList

theorem reads_documents_channel :
    ∃ entries, Toml.ofText? channelDocument = some entries ∧
      (∀ e ∈ entries, e.1 ∈ sections → e.2.IsTable) ∧
      ∃ s, ofText channelDocument = .ok s ∧ Follows entries s ∧ s.network.channel = 7 := by
  obtain ⟨entries, hdoc⟩ := Option.isSome_iff_exists.1
    (by decide +kernel : (Toml.ofText? channelDocument).isSome = true)
  have htables : ∀ e ∈ (Toml.ofText? channelDocument).getD [], e.1 ∈ sections → e.2.IsTable := by
    decide +kernel
  rw [hdoc] at htables
  have hchannel : (ofText channelDocument).toOption.map (fun s => s.network.channel) = some 7 := by
    decide +kernel
  cases hread : ofText channelDocument with
  | error e => simp [hread, Except.toOption] at hchannel
  | ok s =>
    obtain ⟨hfollows, -⟩ := (reads_documents hdoc htables).2 s hread
    simp only [hread, Except.toOption, Option.map_some, Option.some.injEq] at hchannel
    exact ⟨entries, hdoc, htables, s, rfl, hfollows, hchannel⟩

/-- A table in the store that begins with the key of times and names no time. -/
def untimedDocument : List Char :=
  "[store]\na = \x7b \"$__toml_private_datetime\" = 5 \x7d\n".toList

/-- Without the condition on the store there are documents that are not read. -/
theorem not_read_of_sections :
    ¬ ∀ (cs : List Char) (entries : List (String × Toml)), Toml.ofText? cs = some entries →
      (∀ e ∈ entries, e.1 ∈ sections → e.2.IsTable) →
      ((∃ s, ofText cs = .ok s) ↔
        (∀ e ∈ entries, e.1 ∈ sections) ∧
        (∀ e ∈ sectionOf entries "network", Declared.Admits networkFields e) ∧
        (∀ e ∈ sectionOf entries "display", Declared.Admits displayFields e) ∧
        ∀ e ∈ sectionOf entries "robot", Declared.Admits robotFields e) := by
  intro h
  obtain ⟨entries, hdoc⟩ := Option.isSome_iff_exists.1
    (by decide +kernel : (Toml.ofText? untimedDocument).isSome = true)
  have hkeys : ((Toml.ofText? untimedDocument).getD []).map Prod.fst = ["store"] := by
    decide +kernel
  have htables : ∀ e ∈ (Toml.ofText? untimedDocument).getD [], e.1 ∈ sections → e.2.IsTable := by
    decide +kernel
  have hfails : (ofText untimedDocument).isOk = false := by decide +kernel
  rw [hdoc, Option.getD_some] at hkeys htables
  have hnames : ∀ e ∈ entries, e.1 = "store" := by
    intro e he
    have hmem := List.mem_map_of_mem (f := Prod.fst) he
    rw [hkeys] at hmem
    exact List.mem_singleton.1 hmem
  have hempty : ∀ name, name ≠ "store" → sectionOf entries name = [] := by
    intro name hname
    have hnone : entries.lookup name = none := by
      rw [Toml.lookup_eq_none_iff_keys, hkeys]
      exact fun hmem => hname (List.mem_singleton.1 hmem)
    rw [sectionOf, hnone]
  obtain ⟨s, hs⟩ := (h untimedDocument entries hdoc htables).2 (by
    rw [hempty "network" (by decide), hempty "display" (by decide), hempty "robot" (by decide)]
    exact ⟨fun e he => hnames e he ▸ (by decide), nofun, nofun, nofun⟩)
  rw [hs] at hfails
  cases hfails

end RobotConsole.Settings
