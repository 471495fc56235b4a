import CompositionGen.Compile.Job
import CompositionGen.Proofs.Compile.Stages
import CompositionGen.Proofs.Text.Decoding

/-!
# Announced libraries

A line is a message if it begins with a brace and spells an object with the fields of a message;
further fields do not matter. A message that announces a library replaces the announcement before
it, and every other line that is read is passed on as it is. A stream is read up to its first line
that is not UTF-8; what comes later in it is lost.
-/

namespace CompositionGen.BuildMessage

open Json (Document)

/-! ## What a message is -/

/-- What an object has in a field that it may have once. -/
inductive HasField (name : String) (members : List (Option String × Document)) :
    Option Document → Prop
  | absent : (∀ m ∈ members, m.1 ≠ some name) → HasField name members none
  | given {before after : List (Option String × Document)} {value : Document} :
    members = before ++ (some name, value) :: after → (∀ m ∈ before, m.1 ≠ some name) →
    (∀ m ∈ after, m.1 ≠ some name) → HasField name members (some value)

/-- A list of texts, which is empty where it is left out. -/
inductive Lists : Option Document → List String → Prop
  | absent : Lists none []
  | given (texts : List String) : Lists (some (.array (texts.map fun t => .string (some t)))) texts

/-- The crate types of a target, which may be left out. -/
inductive TargetHas : Option Document → Option (List String) → Prop
  | absent : TargetHas none none
  | null : TargetHas (some .null) none
  | object {members : List (Option String × Document)} {value : Option Document}
      {types : List String} :
    (∀ m ∈ members, m.1.isSome = true) → HasField "crate_types" members value → Lists value types →
    TargetHas (some (.object members)) (some types)
  | empty : TargetHas (some (.array [])) (some [])
  | single {value : Document} {types : List String} : Lists (some value) types →
    TargetHas (some (.array [value])) (some types)

/-- A document is that of a message. -/
inductive Describes : Document → BuildMessage → Prop
  | intro {members : List (Option String × Document)} {reason : String}
      {target files : Option Document} {types : Option (List String)} {names : List String} :
    (∀ m ∈ members, m.1.isSome = true) →
    HasField "reason" members (some (.string (some reason))) →
    HasField "target" members target → TargetHas target types →
    HasField "filenames" members files → Lists files names →
    Describes (.object members) ⟨reason, types, names⟩

/-- A line spells a message. -/
def Spells (line : String) (m : BuildMessage) : Prop :=
  ['{'] <+: line.toList ∧ ∃ document, Document.parse? line = some document ∧ Describes document m

/-- A line is a message. -/
def IsMessage (line : String) : Prop := ∃ m, Spells line m

/-- A message announces a library: the first of its files that has the extension of one. -/
structure Announces (m : BuildMessage) (library : Path) : Prop where
  reason : m.reason = "compiler-artifact"
  crateTypes : ∃ types, m.crateTypes = some types ∧ "cdylib" ∈ types
  filenames : ∃ before name after, m.filenames = before ++ name :: after ∧ library = .ofText name ∧
    library.extension? = some libraryExtension ∧
    ∀ other ∈ before, (Path.ofText other).extension? ≠ some libraryExtension

/-- A line announces a library. -/
def AnnouncedOn (line : String) (library : Path) : Prop :=
  ∃ m, Spells line m ∧ m.Announces library

/-- The library that the last of the announcing lines announces, if there is such a line. -/
inductive LastAnnounced (lines : List String) : Option Path → Prop
  | none : (∀ line ∈ lines, ∀ library, ¬AnnouncedOn line library) → LastAnnounced lines none
  | some {before after : List String} {line : String} {library : Path} :
    lines = before ++ line :: after → AnnouncedOn line library →
    (∀ other ∈ after, ∀ library', ¬AnnouncedOn other library') →
    LastAnnounced lines (some library)

variable {name line text : String} {members : List (Option String × Document)}
  {value : Option Document} {document : Document} {types : List String} {m : BuildMessage}
  {library : Path}

/-! ## Reading a message -/

theorem field?_eq_some_iff : field? name members = some value ↔ HasField name members value := by
  unfold field?
  constructor
  · intro h
    split at h
    · next hnone =>
      rw [← Option.some.inj h]
      refine .absent fun m hm => ?_
      simpa using List.filter_eq_nil_iff.mp hnone m hm
    · next m hone =>
      obtain ⟨before, after, rfl, hbefore, hname, hafter⟩ := List.filter_eq_cons_iff.mp hone
      rw [← Option.some.inj h]
      obtain ⟨key, value⟩ := m
      obtain rfl : key = some name := by simpa using hname
      refine .given rfl (fun m hm => by simpa using hbefore m hm) fun m hm => ?_
      simpa using List.filter_eq_nil_iff.mp hafter m hm
    · cases h
  · intro h
    cases h with
    | absent hnone =>
      have hfilter : members.filter (fun m => m.1 == some name) = [] :=
        List.filter_eq_nil_iff.mpr fun m hm => by simpa using hnone m hm
      rw [hfilter]
    | @given before after value hmembers hbefore hafter =>
      have hfilter : members.filter (fun m => m.1 == some name) = [(some name, value)] := by
        refine List.filter_eq_cons_iff.mpr ⟨before, after, hmembers,
          fun m hm => by simpa using hbefore m hm, by simp, ?_⟩
        exact List.filter_eq_nil_iff.mpr fun m hm => by simpa using hafter m hm
      rw [hfilter]

theorem text?_eq_some_iff : text? document = some text ↔ document = .string (some text) := by
  unfold text?
  split <;> simp_all

theorem texts?_eq_some_iff : texts? document = some types ↔ Lists (some document) types := by
  have hitems (items : List Document) (types : List String) : items.mapM text? = some types ↔
      items = types.map fun t => .string (some t) := by
    induction items generalizing types with
    | nil => cases types <;> simp
    | cons item items ih =>
      cases types with
      | nil => simp [List.mapM_cons, Option.bind_eq_some_iff]
      | cons first types => simp [List.mapM_cons, Option.bind_eq_some_iff, text?_eq_some_iff, ih]
  constructor
  · intro h
    unfold texts? at h
    split at h
    · next items =>
      rw [(hitems items types).mp h]
      exact .given types
    · cases h
  · intro h
    cases h with
    | given => exact (hitems _ types).mpr rfl

theorem textsField?_eq_some_iff : textsField? name members = some types ↔
    ∃ value, HasField name members value ∧ Lists value types := by
  simp only [← field?_eq_some_iff]
  unfold textsField?
  cases field? name members with
  | none => simp
  | some value =>
    cases value with
    | none =>
      constructor
      · intro h
        cases h
        exact ⟨none, rfl, .absent⟩
      · rintro ⟨value, heq, hlists⟩
        cases heq
        cases hlists
        rfl
    | some document =>
      have hvalue : ∀ value, some (some document) = some value ↔ value = some document := by
        simp [eq_comm]
      simp only [hvalue, exists_eq_left, ← texts?_eq_some_iff]
      rfl

theorem namesAreTexts_iff : namesAreTexts members = true ↔ ∀ m ∈ members, m.1.isSome = true :=
  List.all_eq_true

theorem target?_eq_some_iff {types : Option (List String)} :
    target? document = some types ↔ TargetHas (some document) types := by
  constructor
  · intro h
    unfold target? at h
    split at h
    · rw [← Option.some.inj h]
      exact .null
    · split at h
      · next htexts =>
        obtain ⟨listed, hlisted, rfl⟩ := Option.map_eq_some_iff.mp h
        obtain ⟨value, hfield, hlists⟩ := textsField?_eq_some_iff.mp hlisted
        exact .object (namesAreTexts_iff.mp htexts) hfield hlists
      · cases h
    · rw [← Option.some.inj h]
      exact .empty
    · obtain ⟨listed, hlisted, rfl⟩ := Option.map_eq_some_iff.mp h
      exact .single (texts?_eq_some_iff.mp hlisted)
    · cases h
  · intro h
    cases h with
    | null => rfl
    | object htexts hfield hlists =>
      have hlisted := textsField?_eq_some_iff.mpr ⟨_, hfield, hlists⟩
      rw [target?, if_pos (namesAreTexts_iff.mpr htexts), hlisted]
      rfl
    | empty => rfl
    | single hlists =>
      rw [target?, texts?_eq_some_iff.mpr hlists]
      rfl

theorem elim_target?_eq_some_iff {types : Option (List String)} :
    value.elim (some none) target? = some types ↔ TargetHas value types := by
  cases value with
  | some document => exact target?_eq_some_iff
  | none =>
    constructor
    · intro h
      rw [← Option.some.inj h]
      exact .absent
    · intro h
      cases h
      rfl

theorem ofDocument?_eq_some_iff : ofDocument? document = some m ↔ Describes document m := by
  constructor
  · intro h
    unfold ofDocument? at h
    split at h
    · next members =>
      split at h
      · cases h
      · next htexts =>
        simp only [Option.bind_eq_bind, Option.bind_eq_some_iff, field?_eq_some_iff,
          text?_eq_some_iff, elim_target?_eq_some_iff, textsField?_eq_some_iff] at h
        obtain ⟨_, hreason, _, rfl, reason, rfl, target, htarget, types, htypes, names,
          ⟨files, hfiles, hnames⟩, heq⟩ := h
        rw [← Option.some.inj heq]
        have hall : namesAreTexts members = true := by simpa using htexts
        exact .intro (namesAreTexts_iff.mp hall) hreason htarget htypes hfiles hnames
    · cases h
  · rintro ⟨htexts, hreason, htarget, htypes, hfiles, hnames⟩
    have hall := namesAreTexts_iff.mpr htexts
    have hlisted := textsField?_eq_some_iff.mpr ⟨_, hfiles, hnames⟩
    simp [ofDocument?, hall, field?_eq_some_iff.mpr hreason, field?_eq_some_iff.mpr htarget,
      elim_target?_eq_some_iff.mpr htypes, hlisted, text?]

theorem parse?_eq_some_iff : parse? line = some m ↔ Spells line m := by
  unfold parse? Spells
  rw [← List.isPrefixOf_iff_prefix]
  split
  · next h => simp [h, Option.bind_eq_some_iff, ofDocument?_eq_some_iff]
  · next h => simp [h]

theorem library?_eq_some_iff : m.library? = some library ↔ m.Announces library := by
  have hfound :
      (m.filenames.map Path.ofText).find? (fun p => p.extension? == some libraryExtension) =
        some library ↔ ∃ before name after, m.filenames = before ++ name :: after ∧
        library = .ofText name ∧ library.extension? = some libraryExtension ∧
        ∀ other ∈ before, (Path.ofText other).extension? ≠ some libraryExtension := by
    rw [List.find?_map, Option.map_eq_some_iff]
    constructor
    · rintro ⟨name, hname, rfl⟩
      obtain ⟨hextension, before, after, hfiles, hbefore⟩ := List.find?_eq_some_iff_append.mp hname
      exact ⟨before, name, after, hfiles, rfl, by simpa using hextension,
        fun other hother => by simpa using hbefore other hother⟩
    · rintro ⟨before, name, after, hfiles, rfl, hextension, hbefore⟩
      refine ⟨name, List.find?_eq_some_iff_append.mpr ⟨by simpa using hextension, before, after,
        hfiles, fun other hother => by simpa using hbefore other hother⟩, rfl⟩
  have hguard : (decide (m.reason = "compiler-artifact") &&
      m.crateTypes.any fun types => types.contains "cdylib") = true ↔
      m.reason = "compiler-artifact" ∧ ∃ types, m.crateTypes = some types ∧ "cdylib" ∈ types := by
    simp [Option.any_eq_true]
  unfold library?
  constructor
  · intro h
    split at h
    · next hboth =>
      obtain ⟨hreason, htypes⟩ := hguard.mp hboth
      exact ⟨hreason, htypes, hfound.mp h⟩
    · cases h
  · intro h
    rw [if_pos (hguard.mpr ⟨h.reason, h.crateTypes⟩)]
    exact hfound.mpr h.filenames

/-! ## What is made of a line -/

theorem isMessage_iff : (parse? line).isSome = true ↔ IsMessage line := by
  simp only [Option.isSome_iff_exists, parse?_eq_some_iff]
  rfl

instance (line : String) : Decidable (IsMessage line) := decidable_of_iff _ isMessage_iff

theorem Spells.unique {m' : BuildMessage} (h : Spells line m) (h' : Spells line m') : m = m' :=
  Option.some.inj ((parse?_eq_some_iff.mpr h).symm.trans (parse?_eq_some_iff.mpr h'))

theorem interpret_eq_artifact_iff :
    interpret line = .artifact library ↔ AnnouncedOn line library := by
  unfold interpret AnnouncedOn
  simp only [← parse?_eq_some_iff, ← library?_eq_some_iff]
  cases parse? line with
  | none => simp
  | some m => cases hlibrary : m.library? <;> simp [hlibrary]

theorem interpret_eq_log_iff : interpret line = .log text ↔ text = line ∧ ¬IsMessage line := by
  unfold interpret
  rw [← isMessage_iff]
  cases parse? line with
  | none => simp [eq_comm]
  | some m => cases hlibrary : m.library? <;> simp [hlibrary]

theorem interpret_eq_detail_iff : interpret line = .detail text ↔
    text = line ∧ IsMessage line ∧ ∀ library, ¬AnnouncedOn line library := by
  unfold interpret AnnouncedOn
  simp only [← isMessage_iff, ← parse?_eq_some_iff, ← library?_eq_some_iff]
  cases parse? line with
  | none => simp
  | some m => cases hlibrary : m.library? <;> simp [hlibrary, eq_comm]

/-! ## What is made of streams -/

/-- The library that counts is the one announced last. -/
theorem lastAnnounced_iff (r : Reading) {announced : Option Path} :
    LastAnnounced r.lines announced ↔ r.announced? interpret = announced := by
  obtain ⟨f, hf, hlast⟩ : ∃ f : String → Option Path,
      (∀ line library, f line = some library ↔ AnnouncedOn line library) ∧
      r.announced? interpret = r.lines.reverse.findSome? f := by
    refine ⟨_, fun line library => ?_, List.getLast?_filterMap⟩
    rw [← interpret_eq_artifact_iff]
    cases interpret line <;> simp
  have hnone (line : String) : f line = none ↔ ∀ library, ¬AnnouncedOn line library := by
    simp only [Option.eq_none_iff_forall_ne_some, ne_eq, hf]
  rw [hlast]
  -- The announcement that counts is the first one from the end.
  constructor
  · intro h
    cases h with
    | none hall =>
      refine List.findSome?_eq_none_iff.mpr fun line hline => ?_
      exact (hnone line).mpr (hall line (List.mem_reverse.mp hline))
    | @some before after line library hlines hon hafter =>
      refine List.findSome?_eq_some_iff.mpr ⟨after.reverse, line, before.reverse, ?_,
        (hf line library).mpr hon, fun other hother => ?_⟩
      · rw [hlines, List.reverse_append, List.reverse_cons, List.append_assoc,
          List.singleton_append]
      · exact (hnone other).mpr (hafter other (List.mem_reverse.mp hother))
  · rintro rfl
    cases hfound : r.lines.reverse.findSome? f with
    | none =>
      refine .none fun line hline => (hnone line).mp ?_
      exact List.findSome?_eq_none_iff.mp hfound line (List.mem_reverse.mpr hline)
    | some library =>
      obtain ⟨after, line, before, hlines, hline, hafter⟩ := List.findSome?_eq_some_iff.mp hfound
      have hsplit : r.lines = before.reverse ++ line :: after.reverse := by
        rw [← List.reverse_reverse r.lines, hlines, List.reverse_append, List.reverse_cons,
          List.append_assoc, List.singleton_append]
      exact .some hsplit ((hf line library).mp hline) fun other hother =>
        (hnone other).mp (hafter other (List.mem_reverse.mp hother))

/-- What is passed on of a line: the line as it is, to be logged if it is no message and as a detail
otherwise, unless it announces a library. -/
inductive PassedOn (unit : BuildUnit) (line : String) : Event → Prop
  | log : ¬IsMessage line → PassedOn unit line ⟨.info, line, [("unit", unit.artifactName)]⟩
  | detail : IsMessage line → (∀ library, ¬AnnouncedOn line library) →
    PassedOn unit line ⟨.debug, line, [("unit", unit.artifactName)]⟩
  | library {library : Path} : AnnouncedOn line library →
    PassedOn unit line ⟨.debug, "toolchain produced library",
      [("unit", unit.artifactName), ("library", library.display)]⟩

/-- What is reported of a stream: what is passed on of each line that was read, and a fault. -/
inductive Reported (unit : BuildUnit) : Reading → List Event → Prop
  | whole {lines : List String} {passed : List Event} :
    List.Forall₂ (PassedOn unit) lines passed → Reported unit ⟨lines, none⟩ passed
  | broken {lines : List String} {passed : List Event} {fault : Utf8.Fault} :
    List.Forall₂ (PassedOn unit) lines passed →
    Reported unit ⟨lines, some fault⟩ (passed ++ [⟨.warn, "cannot read toolchain output",
      [("unit", unit.artifactName), ("error", fault.message)]⟩])

theorem passedOn_event (unit : BuildUnit) (line : String) :
    PassedOn unit line ((interpret line).event unit) := by
  rcases h : interpret line with text | text | library
  · obtain ⟨rfl, hmessage⟩ := interpret_eq_log_iff.mp h
    exact .log hmessage
  · obtain ⟨rfl, hmessage, hnone⟩ := interpret_eq_detail_iff.mp h
    exact .detail hmessage hnone
  · exact .library (interpret_eq_artifact_iff.mp h)

theorem reported_report (unit : BuildUnit) (r : Reading) :
    Reported unit r (r.report interpret unit).events := by
  have hpassed : List.Forall₂ (PassedOn unit) r.lines
      (r.lines.map fun line => (interpret line).event unit) :=
    List.forall₂_map_right_iff.mpr (List.forall₂_same.mpr fun line _ => passedOn_event unit line)
  rcases r with ⟨lines, _ | fault⟩
  · have hevents : (Reading.report interpret unit ⟨lines, none⟩).events =
        lines.map fun line => (interpret line).event unit := List.append_nil _
    rw [hevents]
    exact .whole hpassed
  · exact .broken hpassed

/-- What cargo's output means. A line announces a library, or is passed on as it is: to be logged
if it is no message, and as a detail otherwise. A stream that is UTF-8 is read as the lines that it
shows, and no other stream is: of that, the lines before the first that is not UTF-8 are read.
After a success the poll is for the library that the last announcing line read of the standard
output announces, if there is one, whatever the other stream holds. Of both streams every line that
was read is reported, and no others are. -/
theorem cargo_announces (program : String) (targetRoot : Path) (release : Bool)
    (config : CompileConfig) (unit : BuildUnit) (artifact : Path) :
    let c : Compiler := ⟨config, .cargo program targetRoot release⟩
    (∀ line,
      (∀ library, c.toolchain.interpret line = .artifact library ↔ AnnouncedOn line library) ∧
      (∀ text, c.toolchain.interpret line = .log text ↔ text = line ∧ ¬IsMessage line) ∧
      ∀ text, c.toolchain.interpret line = .detail text ↔
        text = line ∧ IsMessage line ∧ ∀ library, ¬AnnouncedOn line library) ∧
    (∀ bytes, ((∃ lines, Flow.Shows lines bytes) ↔ (Utf8.decode? bytes).isSome = true) ∧
      ((∃ lines, Flow.BreaksOff lines bytes) ↔ Utf8.decode? bytes = none)) ∧
    (∀ lines bytes, Flow.Shows lines bytes → Flow.read ⟨bytes, true⟩ = { lines }) ∧
    (∀ lines bytes, Flow.BreaksOff lines bytes →
      ∃ fault, Flow.read ⟨bytes, true⟩ = ⟨lines, some fault⟩) ∧
    (∀ child : Child, ¬child.Unfinished → child.exit = some (.ok (.code 0)) → ∃ library,
      (∀ announced, LastAnnounced child.stdout.read.lines announced ↔ announced = library) ∧
      ∀ command, (seeThrough c unit artifact command).Step
        (.watched command unit.sourcePath (.ok child))
        ((awaitArtifact config artifact library config.pollAttempts).andThen fun outcome =>
          .done ⟨outcome, reportOutput c.toolchain unit child⟩)) ∧
    ∀ child : Child, ∃ first second,
      (reportOutput c.toolchain unit child).events = first ++ second ∧
        Reported unit child.stdout.read first ∧ Reported unit child.stderr.read second := by
  intro c
  refine ⟨fun line => ⟨fun _ => interpret_eq_artifact_iff, fun _ => interpret_eq_log_iff,
    fun _ => interpret_eq_detail_iff⟩, fun _ => ⟨Flow.exists_shows_iff, Flow.exists_breaksOff_iff⟩,
    fun _ _ => Flow.read_of_shows, fun _ _ => Flow.read_of_breaksOff, fun child hover hexit => ?_,
    fun child => ⟨_, _, rfl, reported_report unit _, reported_report unit _⟩⟩
  refine ⟨child.stdout.read.announced? interpret, fun announced => ?_, fun command => ?_⟩
  · rw [lastAnnounced_iff, eq_comm]
  · have hend : classify c.config child = .ok () := by
      rw [classify_of_not_unfinished c.config hover, hexit]
      rfl
    have hstep : (seeThrough c unit artifact command).Step
        (.watched command unit.sourcePath (.ok child)) _ := .watch _ _ _ _
    simp only [hend] at hstep
    exact hstep

/-- The message that a library was made. -/
def libraryMessage (file : String) : String :=
  "\x7b\"reason\":\"compiler-artifact\",\"target\":\x7b\"crate_types\":[\"cdylib\"]\x7d," ++
    "\"filenames\":[\"" ++ file ++ "\"]\x7d"

/-- What a compiler writes that makes a library twice. -/
def doubleOutput : List String :=
  [libraryMessage "/t/libold.so", "   Compiling demo v0.1.0", libraryMessage "/t/libnew.so"]

/-- A compiler that has made a library twice, with a message in its other output. -/
def doubleCompiler : Child where
  stdout := ⟨Flow.written doubleOutput, true⟩
  stderr := ⟨Flow.written [libraryMessage "/t/libother.so"], true⟩
  exit := some (.ok (.code 0))

theorem cargo_announces_doubleCompiler :
    let c : Compiler := ⟨{}, .cargo "cargo" ⟨"/target"⟩ false⟩
    let unit : BuildUnit := ⟨⟨"/src/demo"⟩, "demo"⟩
    let command := Toolchain.cargoCommand "cargo" ⟨"/target"⟩ false (filesNamed []) unit
    (seeThrough c unit ⟨"/demo.so"⟩ command).Step
        (.watched command ⟨"/src/demo"⟩ (.ok doubleCompiler))
        ((awaitArtifact {} ⟨"/demo.so"⟩ (some ⟨"/t/libnew.so"⟩) 3).andThen fun outcome =>
          .done ⟨outcome, reportOutput c.toolchain unit doubleCompiler⟩) ∧
      ∃ first second, (reportOutput c.toolchain unit doubleCompiler).events = first ++ second ∧
        Reported unit ⟨doubleOutput, none⟩ first ∧
        Reported unit ⟨[libraryMessage "/t/libother.so"], none⟩ second := by
  intro c unit command
  obtain ⟨-, -, hread, -, hpoll, hreported⟩ :=
    cargo_announces "cargo" ⟨"/target"⟩ false {} unit ⟨"/demo.so"⟩
  have hstdout : doubleCompiler.stdout.read = ⟨doubleOutput, none⟩ :=
    hread _ _ (Flow.shows_written (by decide +kernel))
  have hstderr : doubleCompiler.stderr.read = ⟨[libraryMessage "/t/libother.so"], none⟩ :=
    hread _ _ (Flow.shows_written (by decide +kernel))
  have hover : ¬doubleCompiler.Unfinished := by
    rintro (h | h | h) <;> cases h
  obtain ⟨library, hlibrary, hstep⟩ := hpoll doubleCompiler hover rfl
  rw [hstdout] at hlibrary
  have hlast : LastAnnounced doubleOutput (some ⟨"/t/libnew.so"⟩) :=
    (lastAnnounced_iff ⟨doubleOutput, none⟩).mpr (by decide +kernel)
  obtain rfl := (hlibrary _).mp hlast
  obtain ⟨first, second, hevents, hfirst, hsecond⟩ := hreported doubleCompiler
  rw [hstdout] at hfirst
  rw [hstderr] at hsecond
  exact ⟨hstep command, first, second, hevents, hfirst, hsecond⟩

/-! ## What is lost -/

/-- A compiler that warns of a name that is not UTF-8 and then says why it fails. -/
def foreignCompiler : Child where
  stdout := ⟨[], true⟩
  stderr := ⟨[0x77, 0xFF, 0x0A] ++ Flow.written ["error: could not compile"], true⟩
  exit := some (.ok (.code 101))

/-- Not every line is passed on. -/
theorem cargo_loses_lines : ¬∀ (program : String) (targetRoot : Path) (release : Bool)
    (unit : BuildUnit) (child : Child) (line : String),
    (Utf8.decode? child.stdout.bytes).isSome = true →
    Utf8.encode (line ++ "\n") ∈ child.stderr.rawLines → ¬IsMessage line →
    ⟨.info, line, [("unit", unit.artifactName)]⟩ ∈
      (reportOutput (.cargo program targetRoot release) unit child).events := by
  intro h
  have hlost := h "cargo" ⟨"/target"⟩ false ⟨⟨"/src/demo"⟩, "demo"⟩ foreignCompiler
    "error: could not compile" (by decide) (by decide +kernel) (by decide +kernel)
  revert hlost
  decide +kernel

end CompositionGen.BuildMessage
