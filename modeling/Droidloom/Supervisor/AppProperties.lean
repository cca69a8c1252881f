/-
  The properties that Android applications see (`droidloom-supervisor`: `app_properties`).

  Two passes over the lines of a text: the first rewrites the build fields of a development image,
  the second drops every assignment of an enforced key and appends the enforced ones.  Everything
  that is rewritten is a fixed point of the rewriting, so that a projected text is projected to
  itself but for carriage returns (`product_projection`).
-/
import Droidloom.Lib.TextFields

namespace Droidloom.AppProperties

open TextLines

local instance : LawfulBEq Text := inferInstance

def PARTITIONS : List Text :=
  ["bootimage", "system", "system_ext", "vendor", "odm", "product", "system_dlkm", "vendor_dlkm",
    "odm_dlkm"].map String.toList

def DEFAULTS : List (Text × Text) :=
  [("ro.debuggable", "0"), ("ro.force.debuggable", "0"), ("ro.secure", "1"),
    ("ro.adb.secure", "1"), ("ro.build.type", "user"), ("ro.build.tags", "release-keys")].map
    fun entry => (entry.1.toList, entry.2.toList)

/-- What is before and after the first occurrence of a text. -/
def splitOnceText (separator : Text) : Text → Option (Text × Text)
  | [] => none
  | c :: rest =>
    if separator.isPrefixOf (c :: rest) then some ([], (c :: rest).drop separator.length)
    else (splitOnceText separator rest).map fun cut => (c :: cut.1, cut.2)

def buildField (key : Text) : Option Text :=
  (stripPrefix "ro.build.".toList key).or do
    let rest ← stripPrefix "ro.".toList key
    let (partition, field) ← splitOnceText ".build.".toList rest
    if partition ∈ PARTITIONS then some field else none

def buildWord (word : Text) : Text :=
  if word = "userdebug".toList ∨ word = "eng".toList then "user".toList
  else if word = "test-keys".toList ∨ word = "dev-keys".toList then "release-keys".toList
  else match (stripSuffix "-userdebug".toList word).or (stripSuffix "-eng".toList word) with
    | some product => product ++ "-user".toList
    | none => word

def buildWords (value : Text) : Text := joinWords ((words value).map buildWord)

def fingerprint (value : Text) : Option Text := do
  let (identity, variant) ← rsplitOnce ':' value
  let (kind, _) ← splitOnce '/' variant
  if kind = "user".toList ∨ kind = "userdebug".toList ∨ kind = "eng".toList then
    some (identity ++ ":user/release-keys".toList)
  else none

/-- The value that a key gets instead, if it is enforced or a build field. -/
def replacement (key value : Text) : Option Text :=
  match DEFAULTS.find? (·.1 = key) with
  | some (_, enforced) => some enforced
  | none => do
    let field ← buildField key
    if field = "type".toList then some "user".toList
    else if field = "tags".toList then some "release-keys".toList
    else if field = "fingerprint".toList then fingerprint value
    else if field = "flavor".toList ∨ field = "description".toList ∨
        field = "display.id".toList then
      some (buildWords value)
    else none

def releaseLine (line : Text) : Text :=
  ((splitOnce '=' line).bind fun (key, value) =>
    (replacement (trim key) (trim value)).map fun value => trim key ++ '=' :: value).getD line

def releaseProperties (original : Text) : Text := unlines ((lines original).map releaseLine)

/-- The trimmed key that a line assigns. -/
def keyOf (line : Text) : Option Text := (splitOnce '=' line).map fun cut => trim cut.1

def enforces (line : Text) : Bool := (keyOf line).any fun key => DEFAULTS.any (·.1 = key)

def defaultLines : List Text := DEFAULTS.map fun (key, value) => key ++ '=' :: value

def productProperties (original : Text) : Text :=
  unlines ((lines (releaseProperties original)).filter (!enforces ·)) ++ unlines defaultLines

/-! ## Fixed points -/

theorem stripSuffix_eq_some {final text rest : Text} (h : stripSuffix final text = some rest) :
    text = rest ++ final := by
  unfold stripSuffix at h
  split at h
  · rename_i hsuffix
    obtain ⟨start, rfl⟩ := List.isSuffixOf_iff_suffix.mp hsuffix
    obtain rfl := Option.some.inj h
    simp
  · cases h

theorem isWord_buildWord {word : Text} (h : IsWord word) : IsWord (buildWord word) := by
  unfold buildWord
  split
  · exact ⟨by decide, by simp [isWhitespace]⟩
  · split
    · exact ⟨by decide, by simp [isWhitespace]⟩
    · split
      · rename_i product hproduct
        refine ⟨by simp, fun c hc => ?_⟩
        rcases List.mem_append.mp hc with hc | hc
        · -- the product is a part of the word
          rcases Option.or_eq_some_iff.mp hproduct with hstrip | ⟨-, hstrip⟩ <;>
          · rw [stripSuffix_eq_some hstrip] at h
            exact h.solid c (List.mem_append_left _ hc)
        · have hsolid : ∀ c ∈ "-user".toList, isWhitespace c = false := by
            simp [isWhitespace]
          exact hsolid c hc
      · exact h

theorem buildWord_user (product : Text) :
    buildWord (product ++ "-user".toList) = product ++ "-user".toList := by
  have hlast : ∀ other : Text, other.getLast? ≠ some 'r' → product ++ "-user".toList ≠ other := by
    rintro other hother rfl
    exact hother (by simp)
  have hsuffix : ∀ final : Text, final ≠ [] → final.getLast? ≠ some 'r' →
      stripSuffix final (product ++ "-user".toList) = none := by
    intro final hne hfinal
    unfold stripSuffix
    rw [if_neg]
    intro h
    obtain ⟨start, hstart⟩ := List.isSuffixOf_iff_suffix.mp h
    refine hlast (start ++ final) ?_ hstart.symm
    rwa [List.getLast?_append_of_ne_nil _ hne]
  unfold buildWord
  rw [if_neg (not_or.mpr ⟨hlast _ (by decide), hlast _ (by decide)⟩),
    if_neg (not_or.mpr ⟨hlast _ (by decide), hlast _ (by decide)⟩),
    hsuffix _ (by decide) (by decide), hsuffix _ (by decide) (by decide)]
  rfl

theorem buildWord_idem (word : Text) : buildWord (buildWord word) = buildWord word := by
  by_cases hkind : word = "userdebug".toList ∨ word = "eng".toList
  · rcases hkind with rfl | rfl <;> decide
  by_cases hkeys : word = "test-keys".toList ∨ word = "dev-keys".toList
  · rcases hkeys with rfl | rfl <;> decide
  cases hstrip : (stripSuffix "-userdebug".toList word).or (stripSuffix "-eng".toList word) with
  | none =>
    have hsame : buildWord word = word := by
      rw [buildWord, if_neg hkind, if_neg hkeys, hstrip]
    rw [hsame, hsame]
  | some product =>
    have hproduct : buildWord word = product ++ "-user".toList := by
      rw [buildWord, if_neg hkind, if_neg hkeys, hstrip]
    rw [hproduct, buildWord_user]

theorem isWord_of_mem_buildWords (value : Text) :
    ∀ word ∈ (words value).map buildWord, IsWord word := by
  rintro word hmem
  obtain ⟨original, horiginal, rfl⟩ := List.mem_map.mp hmem
  exact isWord_buildWord (isWord_of_mem_wordsFrom (by simp) original horiginal)

theorem buildWords_idem (value : Text) : buildWords (buildWords value) = buildWords value := by
  unfold buildWords
  rw [words_join (isWord_of_mem_buildWords value), List.map_map]
  congr 1
  exact List.map_congr_left fun word _ => buildWord_idem word

theorem fingerprint_fixed {value result : Text} (htrimmed : Trimmed value)
    (h : fingerprint value = some result) : Trimmed result ∧ fingerprint result = some result := by
  simp only [fingerprint, Option.bind_eq_bind, Option.bind_eq_some_iff] at h
  obtain ⟨⟨identity, variant⟩, hcut, ⟨kind, rest⟩, -, h⟩ := h
  split at h
  · obtain rfl := Option.some.inj h
    have hvalue := rsplitOnce_eq_some hcut
    refine ⟨⟨fun c hc => ?_, fun c hc => ?_⟩, ?_⟩
    · -- the result starts as the value does
      refine htrimmed.1 c ?_
      rw [hvalue]
      cases identity with
      | nil => simpa using hc
      | cons first identity => simpa using hc
    · rw [List.getLast?_append_of_ne_nil _ (by decide)] at hc
      have hsolid : ∀ c ∈ ":user/release-keys".toList.getLast?, isWhitespace c = false := by
        simp [isWhitespace]
      exact hsolid c hc
    · have hagain : rsplitOnce ':' (identity ++ ":user/release-keys".toList) =
          some (identity, "user/release-keys".toList) := rsplitOnce_append identity (by decide)
      simp only [fingerprint, hagain]
      rfl
  · cases h

theorem replacement_fixed {key value result : Text} (htrimmed : Trimmed value)
    (h : replacement key value = some result) :
    Trimmed result ∧ replacement key result = some result := by
  unfold replacement at h ⊢
  split at h
  · rename_i entry hfind
    obtain rfl := Option.some.inj h
    refine ⟨?_, rfl⟩
    have hmem := List.mem_of_find?_eq_some hfind
    have hall : ∀ entry ∈ DEFAULTS, Trimmed entry.2 := by
      simp [DEFAULTS, Trimmed, isWhitespace]
    exact hall _ hmem
  · obtain ⟨field, hfield, h⟩ := Option.bind_eq_some_iff.mp h
    rw [hfield]
    dsimp only [Option.bind_eq_bind, Option.bind_some]
    split at h
    · obtain rfl := Option.some.inj h
      exact ⟨by simp [Trimmed, isWhitespace], if_pos ‹_›⟩
    · rw [if_neg ‹_›]
      split at h
      · obtain rfl := Option.some.inj h
        exact ⟨by simp [Trimmed, isWhitespace], if_pos ‹_›⟩
      · rw [if_neg ‹_›]
        split at h
        · rw [if_pos ‹_›]
          exact fingerprint_fixed htrimmed h
        · rw [if_neg ‹_›]
          split at h
          · obtain rfl := Option.some.inj h
            rw [if_pos ‹_›, buildWords_idem]
            exact ⟨trimmed_joinWords (isWord_of_mem_buildWords value), rfl⟩
          · cases h

/-! ## One line -/

/-- A line is rewritten to an assignment of the same key, or kept. -/
theorem releaseLine_cases (line : Text) :
    (∃ key value before after, splitOnce '=' line = some (before, after) ∧ key = trim before ∧
      replacement key (trim after) = some value ∧ releaseLine line = key ++ '=' :: value) ∨
    releaseLine line = line := by
  unfold releaseLine
  cases hcut : splitOnce '=' line with
  | none => exact .inr rfl
  | some cut =>
    obtain ⟨before, after⟩ := cut
    cases hreplacement : replacement (trim before) (trim after) with
    | none => exact .inr (by simp [hreplacement])
    | some value =>
      exact .inl ⟨trim before, value, before, after, rfl, rfl, hreplacement, by simp [hreplacement]⟩

theorem not_mem_trim {c : Char} {text : Text} (h : c ∉ text) : c ∉ trim text := fun hmem =>
  h ((List.rdropWhile_prefix _ _).subset ((List.dropWhile_suffix _).subset hmem))

theorem splitOnce_releaseLine {line key value before after : Text}
    (hcut : splitOnce '=' line = some (before, after)) (hkey : key = trim before) :
    splitOnce '=' (key ++ '=' :: value) = some (key, value) :=
  splitOnce_append (hkey ▸ not_mem_trim (splitOnce_eq_some hcut).2) value

theorem releaseLine_idem (line : Text) : releaseLine (releaseLine line) = releaseLine line := by
  rcases releaseLine_cases line with ⟨key, value, before, after, hcut, hkey, hvalue, hline⟩ | hline
  · obtain ⟨htrimmed, hfixed⟩ := replacement_fixed (trimmed_trim after) hvalue
    have htrim : trim key = key := by rw [hkey, trim_trim]
    rw [hline, releaseLine, splitOnce_releaseLine hcut hkey]
    simp [htrim, trim_eq_self htrimmed, hfixed]
  · rw [hline, hline]

theorem keyOf_releaseLine (line : Text) : keyOf (releaseLine line) = keyOf line := by
  rcases releaseLine_cases line with ⟨key, value, before, after, hcut, hkey, -, hline⟩ | hline
  · rw [hline, keyOf, splitOnce_releaseLine hcut hkey, keyOf, hcut, Option.map_some,
      Option.map_some, hkey, trim_trim]
  · rw [hline]

theorem keyOf_return (line : Text) : keyOf (line ++ ['\r']) = keyOf line := by
  rw [keyOf, splitOnce_concat (by decide), Option.map_map]
  rfl

/-- A line without the carriage returns at its end. -/
def bare (line : Text) : Text := line.rdropWhile (· = '\r')

theorem bare_return (line : Text) : bare (line ++ ['\r']) = bare line :=
  List.rdropWhile_concat_pos _ _ _ (by decide)

theorem bare_releaseLine_return (line : Text) :
    bare (releaseLine (line ++ ['\r'])) = bare (releaseLine line) := by
  unfold releaseLine
  rw [splitOnce_concat (by decide)]
  cases splitOnce '=' line with
  | none => exact bare_return line
  | some cut =>
    obtain ⟨key, value⟩ := cut
    dsimp only [Option.map_some, Option.bind_some]
    rw [trim_concat value (by decide)]
    cases replacement (trim key) (trim value) with
    | none => exact bare_return line
    | some value => rfl

/-- What carriage returns at the end do not change. -/
theorem bare_invariant {α : Type} {f : Text → α} (h : ∀ line, f (line ++ ['\r']) = f line)
    (line : Text) : f (bare line) = f line := by
  induction line using List.reverseRecOn with
  | nil => rfl
  | append_singleton line c ih =>
    by_cases hc : c = '\r'
    · subst hc
      rw [bare_return, h, ih]
    · rw [bare, List.rdropWhile_concat_neg _ _ _ (by simpa using hc)]

theorem chomp_invariant {α : Type} {f : Text → α} (h : ∀ line, f (line ++ ['\r']) = f line)
    (line : Text) : f (chomp line) = f line := by
  rcases chomp_eq line with hsame | hline
  · rw [hsame]
  · conv_rhs => rw [hline]
    rw [h]

/-! ## The projected text -/

theorem enforces_return (line : Text) : enforces (line ++ ['\r']) = enforces line := by
  rw [enforces, keyOf_return, enforces]

theorem feedless_joinWords {ws : List Text} (hwords : ∀ word ∈ ws, IsWord word) :
    '\n' ∉ joinWords ws := by
  unfold joinWords
  induction ws with
  | nil => exact List.not_mem_nil
  | cons word rest ih =>
    have hword : '\n' ∉ word := by
      intro hmem
      have hblank := (hwords word List.mem_cons_self).solid _ hmem
      revert hblank
      decide
    have hrest := ih fun other hmem => hwords other (List.mem_cons_of_mem _ hmem)
    cases rest with
    | nil => rwa [List.intercalate_singleton]
    | cons next rest =>
      rw [List.intercalate_cons_cons]
      simp [hword, hrest]

theorem feedless_replacement {key value result : Text} (hvalue : '\n' ∉ value)
    (h : replacement key value = some result) : '\n' ∉ result := by
  unfold replacement at h
  split at h
  · rename_i entry hfind
    obtain rfl := Option.some.inj h
    have hall : ∀ entry ∈ DEFAULTS, '\n' ∉ entry.2 := by decide
    exact hall _ (List.mem_of_find?_eq_some hfind)
  · obtain ⟨field, -, h⟩ := Option.bind_eq_some_iff.mp h
    split_ifs at h
    · obtain rfl := Option.some.inj h
      decide
    · obtain rfl := Option.some.inj h
      decide
    · simp only [fingerprint, Option.bind_eq_bind, Option.bind_eq_some_iff] at h
      obtain ⟨⟨identity, variant⟩, hcut, ⟨kind, rest⟩, -, h⟩ := h
      split at h
      · obtain rfl := Option.some.inj h
        rw [rsplitOnce_eq_some hcut] at hvalue
        rw [List.mem_append, not_or]
        exact ⟨fun hmem => hvalue (List.mem_append_left _ hmem), by decide⟩
      · cases h
    · obtain rfl := Option.some.inj h
      exact feedless_joinWords (isWord_of_mem_buildWords value)

theorem feedless_releaseLine {line : Text} (h : '\n' ∉ line) : '\n' ∉ releaseLine line := by
  rcases releaseLine_cases line with ⟨key, value, before, after, hcut, rfl, hvalue, hline⟩ | hline
  · rw [(splitOnce_eq_some hcut).1, List.mem_append, List.mem_cons, not_or, not_or] at h
    have hreplaced := feedless_replacement (not_mem_trim h.2.2) hvalue
    rw [hline, List.mem_append, List.mem_cons, not_or, not_or]
    exact ⟨not_mem_trim h.1, by decide, hreplaced⟩
  · rwa [hline]

theorem lines_productProperties (text : Text) :
    lines (productProperties text) =
      ((((lines text).map releaseLine).map chomp).filter (!enforces ·)).map chomp ++
        defaultLines := by
  have hrelease : ∀ line ∈ (lines text).map releaseLine, '\n' ∉ line := by
    intro line hmem
    obtain ⟨original, horiginal, rfl⟩ := List.mem_map.mp hmem
    exact feedless_releaseLine (not_mem_linesFrom List.not_mem_nil original horiginal)
  rw [productProperties, ← unlines_append, lines_unlines_chomp, releaseProperties,
    lines_unlines_chomp hrelease, List.map_append]
  · congr 1
  · intro line hmem
    rcases List.mem_append.mp hmem with hkept | hdefault
    · exact not_mem_linesFrom List.not_mem_nil line (List.mem_filter.mp hkept).1
    · have hall : ∀ line ∈ defaultLines, '\n' ∉ line := by decide
      exact hall line hdefault

/-- The fields that are rewritten. -/
def rewrittenFields : List Text :=
  ["type", "tags", "fingerprint", "flavor", "description", "display.id"].map String.toList

/-- The key of the line is neither enforced nor a rewritten build field. -/
def untouched (line : Text) : Bool :=
  (keyOf line).all fun key =>
    !DEFAULTS.any (·.1 = key) && !(buildField key).any fun field => field ∈ rewrittenFields

theorem untouched_return (line : Text) : untouched (line ++ ['\r']) = untouched line := by
  rw [untouched, keyOf_return, untouched]

theorem releaseLine_of_untouched {line : Text} (h : untouched line = true) :
    releaseLine line = line := by
  rcases releaseLine_cases line with ⟨key, value, before, after, hcut, rfl, hvalue, -⟩ | hline
  · exfalso
    simp only [untouched, keyOf, hcut, Option.map_some, Option.all_some, Bool.and_eq_true,
      Bool.not_eq_true', List.any_eq_false, decide_eq_true_eq] at h
    obtain ⟨hdefault, hfield⟩ := h
    have hnone : DEFAULTS.find? (·.1 = trim before) = none := by
      simpa [List.find?_eq_none] using hdefault
    simp only [replacement, hnone] at hvalue
    obtain ⟨field, hbuild, hvalue⟩ := Option.bind_eq_some_iff.mp hvalue
    rw [hbuild] at hfield
    simp only [rewrittenFields, Option.any_some, List.map_cons, List.map_nil, List.mem_cons,
      List.not_mem_nil, or_false, decide_eq_false_iff_not, not_or] at hfield
    obtain ⟨htype, htags, hfingerprint, hflavor, hdescription, hdisplay⟩ := hfield
    rw [if_neg htype, if_neg htags, if_neg hfingerprint,
      if_neg (not_or.mpr ⟨hflavor, not_or.mpr ⟨hdescription, hdisplay⟩⟩)] at hvalue
    cases hvalue
  · exact hline

/-- A line without its carriage returns, rewritten. -/
def released (line : Text) : Text := bare (releaseLine line)

theorem keyOf_released (line : Text) : keyOf (released line) = keyOf line := by
  rw [released, bare_invariant keyOf_return, keyOf_releaseLine]

theorem released_bare (line : Text) : released (bare line) = released line :=
  bare_invariant bare_releaseLine_return line

theorem released_idem (line : Text) : released (released line) = released line := by
  have hbare : released (released line) = released (releaseLine line) := released_bare _
  have hidem : released (releaseLine line) = released line := congrArg bare (releaseLine_idem line)
  exact hbare.trans hidem

theorem bare_lines_product (text : Text) :
    (lines (productProperties text)).map bare =
      ((lines text).filter (!enforces ·)).map released ++ defaultLines := by
  have hdefaults : defaultLines.map bare = defaultLines := by decide
  have hchomp : bare ∘ chomp = bare := funext (chomp_invariant bare_return)
  have hkept : (fun line => !enforces line) ∘ chomp = fun line => !enforces line :=
    funext fun line => congrArg Bool.not (chomp_invariant enforces_return line)
  have hkept' : (fun line => !enforces line) ∘ releaseLine = fun line => !enforces line :=
    funext fun line => by simp [enforces, keyOf_releaseLine]
  rw [lines_productProperties, List.map_append, hdefaults, List.map_map, hchomp, List.filter_map,
    hkept, List.map_map, hchomp, List.filter_map, hkept', List.map_map]
  rfl

theorem enforced_once (text : Text) {entry : Text × Text} (hentry : entry ∈ DEFAULTS) :
    (lines (productProperties text)).filter (fun line => keyOf line = some entry.1) =
      [entry.1 ++ '=' :: entry.2] := by
  have hdefaults : ∀ entry ∈ DEFAULTS,
      defaultLines.filter (fun line => keyOf line = some entry.1) =
        [entry.1 ++ '=' :: entry.2] := by
    decide
  rw [lines_productProperties, List.filter_append, hdefaults entry hentry, List.append_left_eq_self,
    List.filter_eq_nil_iff]
  intro line hmem hkey
  obtain ⟨original, horiginal, rfl⟩ := List.mem_map.mp hmem
  rw [chomp_invariant keyOf_return, decide_eq_true_eq] at hkey
  have hkept := (List.mem_filter.mp horiginal).2
  rw [enforces, hkey, Option.any_some, Bool.not_eq_true', List.any_eq_false] at hkept
  exact hkept entry hentry (by simp)

theorem untouched_kept (text : Text) :
    ((lines (productProperties text)).filter untouched).map bare =
      ((lines text).filter untouched).map bare := by
  have hdefaults : defaultLines.filter untouched = [] := by decide
  have hchomp : untouched ∘ chomp = untouched := funext (chomp_invariant untouched_return)
  have hrelease : untouched ∘ releaseLine = untouched :=
    funext fun line => by simp [untouched, keyOf_releaseLine]
  have hkept : (fun line => untouched line && !enforces line) = untouched := by
    funext line
    unfold untouched enforces
    cases keyOf line with
    | none => rfl
    | some key => simp; grind
  have hsame : ((lines text).filter untouched).map releaseLine = (lines text).filter untouched :=
    (List.map_congr_left fun line hmem =>
      releaseLine_of_untouched (List.mem_filter.mp hmem).2).trans (List.map_id _)
  rw [lines_productProperties, List.filter_append, hdefaults, List.append_nil, List.filter_map,
    hchomp, List.filter_filter, hkept, List.filter_map, hchomp, List.filter_map, hrelease, hsame,
    List.map_map, List.map_map]
  exact List.map_congr_left fun line _ => by
    simp [chomp_invariant bare_return]

/-- **The projection**: every enforced key is assigned once and with its value, every untouched line
    is kept, in order, and what is projected is projected to itself, but for carriage returns. -/
theorem product_projection (text : Text) :
    (∀ entry ∈ DEFAULTS, (lines (productProperties text)).filter
      (fun line => keyOf line = some entry.1) = [entry.1 ++ '=' :: entry.2]) ∧
    ((lines (productProperties text)).filter untouched).map bare =
      ((lines text).filter untouched).map bare ∧
    (lines (productProperties (productProperties text))).map bare =
      (lines (productProperties text)).map bare := by
  refine ⟨fun entry hentry => enforced_once text hentry, untouched_kept text, ?_⟩
  have hbare : (fun line => !enforces line) ∘ bare = fun line => !enforces line :=
    funext fun line => congrArg Bool.not (bare_invariant enforces_return line)
  have hkept : (fun line => !enforces line) ∘ released = fun line => !enforces line :=
    funext fun line => by simp [enforces, keyOf_released]
  have hdefaults : defaultLines.filter (!enforces ·) = [] := by decide
  have hreleased : released ∘ bare = released := funext released_bare
  -- the kept lines of the projected text are those of the text, already rewritten
  have hlines : (((lines (productProperties text)).filter (!enforces ·)).map released) =
      ((lines text).filter (!enforces ·)).map released := by
    have hstep : ((lines (productProperties text)).filter (!enforces ·)).map released =
        (((lines (productProperties text)).map bare).filter (!enforces ·)).map released := by
      rw [List.filter_map, hbare, List.map_map, hreleased]
    rw [hstep, bare_lines_product, List.filter_append, hdefaults, List.append_nil, List.filter_map,
      hkept, List.filter_filter, List.map_map]
    simp only [Bool.and_self]
    exact List.map_congr_left fun line _ => released_idem line
  rw [bare_lines_product, bare_lines_product, hlines]

end Droidloom.AppProperties
