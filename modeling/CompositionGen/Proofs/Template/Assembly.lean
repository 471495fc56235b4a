import CompositionGen.Proofs.Files.Listing
import CompositionGen.Proofs.Files.Reaching
import CompositionGen.Proofs.Text.Decoding
import CompositionGen.Template

/-!
# Templates of directories

A directory is assembled to one text: the texts of the regular files below it, in the order of
their locations, on lines of their own, and without white space around the whole. Nothing else below
the directory counts, and one file that is not a text spoils all, as does one that its path does not
lead to.
-/

namespace CompositionGen

/-! ## Joining and trimming -/

namespace Text

theorem join_eq_intercalate (separator : List Char) (parts : List (List Char)) :
    join separator parts = separator.intercalate parts := by
  induction parts with
  | nil => rfl
  | cons part rest ih =>
    cases rest with
    | nil => simp [join]
    | cons next rest =>
      rw [join, ih, List.intercalate_cons_cons]
      simp

theorem joinTexts_eq_intercalate (separator : String) (texts : List String) :
    joinTexts separator texts = separator.intercalate texts := by
  rw [← String.toList_inj, joinTexts, String.toList_ofList, String.toList_intercalate,
    join_eq_intercalate]

/-- A text is what is left of a whole without the white space at its two ends. -/
structure Trims (whole text : String) : Prop where
  split : ∃ front back, whole = front ++ text ++ back ∧
    (∀ c ∈ front.toList, isBlank c = true) ∧ ∀ c ∈ back.toList, isBlank c = true
  head : ∀ c, text.toList.head? = some c → isBlank c = false
  last : ∀ c, text.toList.getLast? = some c → isBlank c = false

theorem not_isBlank_of_head?_dropWhile {cs : List Char} {c : Char}
    (h : (cs.dropWhile isBlank).head? = some c) : isBlank c = false := by
  have := List.head?_dropWhile_not isBlank cs
  rwa [h] at this

theorem trims_trim (whole : String) : Trims whole (trim whole) := by
  have hfront (cs : List Char) : ∀ c ∈ cs.takeWhile isBlank, isBlank c = true :=
    List.all_eq_true.mp List.all_takeWhile
  have hmiddle : whole.toList.dropWhile isBlank = trimList whole.toList ++
      ((whole.toList.dropWhile isBlank).reverse.takeWhile isBlank).reverse := by
    rw [trimList, ← List.reverse_append, List.takeWhile_append_dropWhile, List.reverse_reverse]
  refine ⟨⟨String.ofList (whole.toList.takeWhile isBlank), String.ofList
    ((whole.toList.dropWhile isBlank).reverse.takeWhile isBlank).reverse, ?_, ?_, ?_⟩, ?_, ?_⟩
  · rw [← String.toList_inj, String.toList_append, String.toList_append, trim]
    simp only [String.toList_ofList]
    rw [List.append_assoc, ← hmiddle, List.takeWhile_append_dropWhile]
  · rw [String.toList_ofList]
    exact hfront _
  · rw [String.toList_ofList]
    simpa using hfront (whole.toList.dropWhile isBlank).reverse
  · intro c hc
    rw [trim, String.toList_ofList] at hc
    have hhead : (whole.toList.dropWhile isBlank).head? = some c := by
      rw [hmiddle, List.head?_append, hc, Option.some_or]
    exact not_isBlank_of_head?_dropWhile hhead
  · intro c hc
    rw [trim, String.toList_ofList, trimList, List.getLast?_reverse] at hc
    exact not_isBlank_of_head?_dropWhile hc

end Text

namespace Template

variable {fs : FileSystem} {pattern directory : String} {p : Path} {entries : Entries}
  {content : Content} {base : Location} {files : List (Location × Content)} {texts : List String}
  {text : String}

theorem withoutStar_slash (directory : String) :
    withoutStar (directory ++ "/") = directory ++ "/" := by
  simp [withoutStar]

theorem withoutStar_star (directory : String) :
    withoutStar (directory ++ "/*") = directory ++ "/" := by
  have hstar : "/*".toList = ['/', '*'] := by decide
  rw [← String.toList_inj, withoutStar]
  simp [hstar]

theorem textOf_ok_iff : FileSystem.textOf content = .ok text ↔
    content.toBytes = Utf8.encode text := by
  rw [← Utf8.decode?_eq_some_iff, FileSystem.textOf, Content.text?]
  cases Utf8.decode? content.toBytes <;> simp

theorem textOf_eq_error (h : ∀ text, content.toBytes ≠ Utf8.encode text) :
    FileSystem.textOf content = .error .notUtf8 := by
  cases htext : FileSystem.textOf content with
  | ok text => exact absurd (textOf_ok_iff.mp htext) (h text)
  | error cause =>
    rw [FileSystem.textOf] at htext
    split at htext
    · cases htext
    · exact htext.symm

/-- Either all files are read as texts, or one is refused. -/
theorem texts_cases (files : List (Location × Content)) :
    (∃ texts, List.Forall₂ (fun file text => file.2.toBytes = Utf8.encode text) files texts ∧
        (files.map (·.2)).mapM FileSystem.textOf = .ok texts) ∨
      (∃ file ∈ files, ∀ text, file.2.toBytes ≠ Utf8.encode text) ∧
        (files.map (·.2)).mapM FileSystem.textOf = .error .notUtf8 := by
  induction files with
  | nil => exact .inl ⟨[], .nil, rfl⟩
  | cons file rest ih =>
    rw [List.map_cons, List.mapM_cons]
    by_cases hfile : ∃ text, file.2.toBytes = Utf8.encode text
    · obtain ⟨text, htext⟩ := hfile
      rw [textOf_ok_iff.mpr htext]
      rcases ih with ⟨texts, hrest, hread⟩ | ⟨⟨bad, hmem, hbad⟩, hread⟩
      · exact .inl ⟨text :: texts, .cons htext hrest, by rw [hread]; rfl⟩
      · exact .inr ⟨⟨bad, List.mem_cons_of_mem _ hmem, hbad⟩, by rw [hread]; rfl⟩
    · rw [not_exists] at hfile
      rw [textOf_eq_error hfile]
      exact .inr ⟨⟨file, List.mem_cons_self, hfile⟩, rfl⟩

/-! ## Files and their paths -/

theorem load_of_filesAt {paths : List Path}
    (h : filesAt fs (.ofText (withoutStar pattern)) = .ok paths) :
    load fs pattern = ((paths.mapM fs.readText).mapError .read).map assemble := by
  rw [load, h]
  show ((_ : Except FileError (List String)).mapError LoadError.read >>= _) = _
  cases paths.mapM fs.readText with
  | error cause => rfl
  | ok texts => rfl

theorem load_of_filesAt_error {cause : LoadError}
    (h : filesAt fs (.ofText (withoutStar pattern)) = .error cause) :
    load fs pattern = .error cause := by
  rw [load, h]
  rfl

/-- The files of a directory are found if its directories can be opened. -/
theorem filesAt_of_walkRoot (hslash : p.text.toList.getLast? = some '/')
    (hroot : fs.walkRoot p = .ok ⟨base, .directory entries, false⟩) :
    filesAt fs p =
      match fs.openAll p
        (((FileNode.directory entries).listing.filter fun e => e.2.isDirectory).map (·.1)) with
      | .error cause => .error (.walk cause)
      | .ok () => .ok (((FileNode.directory entries).regularFiles.map (·.1)).map p.joinAll) := by
  rw [← FileNode.map_filter_isFile, filesAt, if_pos hslash, hroot]
  rfl

theorem readText_of_resolve {location : Location} {executable : Bool}
    (h : fs.resolve p = .ok (.occupied location (.file content executable))) :
    fs.readText p = FileSystem.textOf content := by
  rw [FileSystem.readText, FileSystem.read, FileSystem.stat_eq_ok_iff.mpr ⟨location, h⟩]
  rfl

theorem hasNode_of_readText (h : fs.readText p = .ok text) : fs.hasNode p = true := by
  rw [FileSystem.readText, Outcome.bind_ok_iff] at h
  obtain ⟨content, hread, -⟩ := h
  rw [FileSystem.read, Outcome.bind_ok_iff] at hread
  obtain ⟨node, hnode, -⟩ := hread
  exact FileSystem.hasNode_iff.mpr ⟨node, hnode⟩

theorem mapM_readText
    (h : ∀ file ∈ files, fs.readText (p.joinAll file.1) = FileSystem.textOf file.2) :
    ((files.map (·.1)).map p.joinAll).mapM fs.readText =
      (files.map (·.2)).mapM FileSystem.textOf := by
  induction files with
  | nil => rfl
  | cons file rest ih =>
    obtain ⟨hfile, hrest⟩ := List.forall_mem_cons.mp h
    simp only [List.map_cons, List.mapM_cons]
    rw [hfile, ih hrest]

/-- Where all files are read, each of them is found. -/
theorem hasNode_of_mapM {paths : List Path} (h : paths.mapM fs.readText = .ok texts) :
    ∀ q ∈ paths, fs.hasNode q = true := by
  induction paths generalizing texts with
  | nil => simp
  | cons q rest ih =>
    rw [List.mapM_cons, Outcome.bind_ok_iff] at h
    obtain ⟨text, hq, h⟩ := h
    rw [Outcome.bind_ok_iff] at h
    obtain ⟨others, hrest, -⟩ := h
    exact List.forall_mem_cons.mpr ⟨hasNode_of_readText hq, ih hrest⟩

/-- Whether the template of a directory needs a node: a directory is opened, a regular file read. -/
def isNeeded (node : FileNode) : Bool := node.isDirectory || node.isFile

theorem filesAt_of_reaches (hslash : p.text.toList.getLast? = some '/')
    (hroot : fs.walkRoot p = .ok ⟨base, .directory entries, false⟩)
    (hentries : (FileNode.directory entries).isWellFormed = true)
    (hread : fs.Reaches p (.directory entries) isNeeded) :
    filesAt fs p = .ok (((FileNode.directory entries).regularFiles.map (·.1)).map p.joinAll) := by
  have hopen :
      fs.openAll p
        (((FileNode.directory entries).listing.filter fun e => e.2.isDirectory).map (·.1)) =
      .ok () := by
    refine FileSystem.openAll_eq_ok_iff.mpr fun location hlocation => ?_
    obtain ⟨⟨_, found⟩, hfound, rfl⟩ := List.mem_map.mp hlocation
    obtain ⟨hlisted, hd⟩ := List.mem_filter.mp hfound
    exact hread _ found ((FileNode.mem_listing_iff hentries).mp hlisted)
      (by rw [isNeeded, hd, Bool.true_or])
  rw [filesAt_of_walkRoot hslash hroot, hopen]

/-- Where files are found and all of them read, their directories and they themselves are found. -/
theorem reaches_of_mapM {paths : List Path} (hslash : p.text.toList.getLast? = some '/')
    (hroot : fs.walkRoot p = .ok ⟨base, .directory entries, false⟩)
    (hentries : (FileNode.directory entries).isWellFormed = true)
    (hfiles : filesAt fs p = .ok paths) (htexts : paths.mapM fs.readText = .ok texts) :
    fs.Reaches p (.directory entries) isNeeded := by
  rw [filesAt_of_walkRoot hslash hroot] at hfiles
  split at hfiles
  · cases hfiles
  · next hopen =>
    cases hfiles
    intro location found hat hneeded
    have hlisted := (FileNode.mem_listing_iff hentries).mpr hat
    rw [isNeeded, Bool.or_eq_true] at hneeded
    rcases hneeded with hd | hfile
    · refine FileSystem.openAll_eq_ok_iff.mp hopen location ?_
      exact List.mem_map.mpr ⟨_, List.mem_filter.mpr ⟨hlisted, hd⟩, rfl⟩
    · refine hasNode_of_mapM htexts _ (List.mem_map_of_mem ?_)
      rw [← FileNode.map_filter_isFile]
      exact List.mem_map.mpr ⟨_, List.mem_filter.mpr ⟨hlisted, hfile⟩, rfl⟩

/-- The template of a directory is made of the regular files below it and nothing else. Where all
of them are texts, it is these texts in the order of the locations, with a line feed between any two
and without the white space around the whole; where one is none, there is no template. A directory
without files has no part in it. There is no template either where a directory or a file is not
found by its path. -/
theorem load_directory (hpattern : pattern = directory ++ "/" ∨ pattern = directory ++ "/*")
    (hstat : fs.stat (.ofText (directory ++ "/")) = .ok (.directory entries))
    (hentries : (FileNode.directory entries).isWellFormed = true) :
    (∃ files, (FileNode.directory entries).ListsFiles files) ∧
      (fs.Reaches (.ofText (directory ++ "/")) (.directory entries) isNeeded →
        ∀ files, (FileNode.directory entries).ListsFiles files →
          (∃ texts text,
            List.Forall₂ (fun file text => file.2.toBytes = Utf8.encode text) files texts ∧
              load fs pattern = .ok text ∧ Text.Trims ("\n".intercalate texts) text) ∨
            (∃ file ∈ files, ∀ text, file.2.toBytes ≠ Utf8.encode text) ∧
              load fs pattern = .error (.read .notUtf8)) ∧
      (¬fs.Reaches (.ofText (directory ++ "/")) (.directory entries) isNeeded →
        ∃ cause, load fs pattern = .error cause) := by
  have hregular := FileNode.listsFiles_regularFiles hentries
  have hpath : withoutStar pattern = directory ++ "/" := by
    rcases hpattern with rfl | rfl
    · exact withoutStar_slash directory
    · exact withoutStar_star directory
  rw [← hpath] at hstat ⊢
  have hslash : (Path.ofText (withoutStar pattern)).text.toList.getLast? = some '/' := by
    have hlast : ByteString.ofText "/" = "/" := by decide +kernel
    rw [hpath, Path.ofText, ByteString.ofText_append, hlast]
    simp
  obtain ⟨base, hresolve, hroot⟩ := FileSystem.walkRoot_of_stat hslash hstat
  refine ⟨⟨_, hregular⟩, fun hread files hfiles => ?_, fun hread => ?_⟩
  -- There is only one list of all files in order, so it is the one that the walk yields.
  · obtain rfl := hfiles.unique hregular
    have hcontents : ∀ file ∈ (FileNode.directory entries).regularFiles,
        fs.readText ((Path.ofText (withoutStar pattern)).joinAll file.1) =
          FileSystem.textOf file.2 := by
      intro file hfile
      obtain ⟨executable, hat⟩ := (hregular.mem_iff file.1 file.2).mp hfile
      exact readText_of_resolve (hread.resolve (fun _ => rfl) hresolve hentries hat rfl nofun)
    rw [load_of_filesAt (filesAt_of_reaches hslash hroot hentries hread), mapM_readText hcontents]
    rcases texts_cases (FileNode.directory entries).regularFiles with
      ⟨texts, hall, htexts⟩ | ⟨hbad, htexts⟩
    · rw [htexts]
      refine .inl ⟨texts, assemble texts, hall, rfl, ?_⟩
      rw [assemble, ← Text.joinTexts_eq_intercalate]
      exact Text.trims_trim _
    · rw [htexts]
      exact .inr ⟨hbad, rfl⟩
  -- Had all files been read, all of them would have been found by their paths.
  · rcases hfiles : filesAt fs (.ofText (withoutStar pattern)) with cause | paths
    · exact ⟨cause, load_of_filesAt_error hfiles⟩
    · rw [load_of_filesAt hfiles]
      cases htexts : paths.mapM fs.readText with
      | error cause => exact ⟨.read cause, rfl⟩
      | ok texts => exact absurd (reaches_of_mapM hslash hroot hentries hfiles htexts) hread

/-! ## A directory beside a file of a longer name -/

/-- The name of a file goes on with a character that is smaller than a slash. -/
def nestedTemplates : Entries := [
  ("a", .directory [("c", .file (.ofText "below a\n") false)]),
  ("a.yaml", .file (.ofText " beside a \n") false),
  ("b", .directory [])]

/-- A file system with these templates. -/
def nestedFiles : FileSystem := ⟨.directory [("templates", .directory nestedTemplates)], []⟩

theorem load_directory_nestedTemplates : load nestedFiles "templates/*" =
      .ok "below a\n\n beside a" ∧
    ∃ files texts, (FileNode.directory nestedTemplates).ListsFiles files ∧
      files.map (·.1) = [["a", "c"], ["a.yaml"]] ∧
      Text.Trims ("\n".intercalate texts) "below a\n\n beside a" := by
  have hread : load nestedFiles "templates/*" = .ok "below a\n\n beside a" := by decide +kernel
  have hentries : (FileNode.directory nestedTemplates).isWellFormed = true := by decide +kernel
  have hpath : Path.ofText ("templates" ++ "/") = ⟨"templates/"⟩ := by decide +kernel
  have hstat : nestedFiles.stat (.ofText ("templates" ++ "/")) =
      .ok (.directory nestedTemplates) := by
    rw [hpath]
    rfl
  obtain ⟨⟨files, hfiles⟩, hload, -⟩ := load_directory (.inr rfl) hstat hentries
  refine ⟨hread, ?_⟩
  rw [hpath] at hload
  have hreaches : nestedFiles.Reaches ⟨"templates/"⟩ (.directory nestedTemplates) isNeeded :=
    FileSystem.reaches_of_all hentries (by decide +kernel)
  rcases hload hreaches files hfiles with ⟨texts, text, -, hok, htrims⟩ | ⟨-, herror⟩
  · obtain rfl : text = "below a\n\n beside a" := Except.ok.inj (hok.symm.trans hread)
    refine ⟨files, texts, hfiles, ?_, htrims⟩
    rw [hfiles.unique (FileNode.listsFiles_regularFiles hentries)]
    decide +kernel
  · exact nomatch hread.symm.trans herror

end Template

end CompositionGen
