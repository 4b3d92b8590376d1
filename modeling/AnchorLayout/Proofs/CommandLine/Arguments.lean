import AnchorLayout.CommandLine.Arguments
import Mathlib

/-!
# Arguments in any order

The path of a scene is read by itself, and so is an option that is joined to its
value (`readAll_eq_foldl`). Two of them that set different things can be read in
either order (`Progress.readAlone_comm`). So a command line that gives the path
and options, each once, asks for the same in whatever order they stand
(`parse_of_perm`).
-/

namespace AnchorLayout.CommandLine

/-! ## Options joined to their values -/

/-- The spelling of an option in full. -/
def Flag.spelling : Flag → String
  | .help => "--help"
  | .logLevel => "--log-level"
  | .expr => "--expr"
  | .selfId => "--self-id"

/-- An option that is joined to its value with an equals sign. -/
def joined (flag : Flag) (value : String) : String := flag.spelling ++ "=" ++ value

section

variable (flag : Flag) (value : String)

theorem toList_joined :
    (joined flag value).toList = flag.spelling.toList ++ '=' :: value.toList := by
  simp [joined]

/-- The first equals sign parts an option from its value, which may have others
    in it. -/
theorem splitValue_joined :
    splitValue (joined flag value).toList = (flag.spelling.toList, some value) := by
  have hname : ∀ c ∈ flag.spelling.toList, (c != '=') = true := by
    cases flag <;> simp [Flag.spelling]
  rw [splitValue, toList_joined, List.takeWhile_append_of_pos hname,
    List.dropWhile_append_of_pos hname]
  simp

theorem find?_spelling :
    spellings.find? (fun s => s.1.toList == flag.spelling.toList) =
      some (flag.spelling, flag) := by
  cases flag <;> decide +kernel

/-- An option with a value is not the mark that ends the options. -/
theorem joined_ne_mark : joined flag value ≠ "--" := by
  intro h
  have hlist := congrArg String.toList h
  rw [toList_joined] at hlist
  cases flag <;> simp [Flag.spelling] at hlist

/-- Whatever the value is, an option that is joined to it is that option. -/
theorem classify_joined : classify (joined flag value) = .ok (.option flag (some value)) := by
  obtain ⟨name, hname⟩ : ∃ name, (joined flag value).toList = '-' :: '-' :: name := by
    rw [toList_joined]
    cases flag <;> exact ⟨_, rfl⟩
  rw [classify, splitValue_joined]
  dsimp only
  rw [hname]
  simp [joined_ne_mark, find?_spelling]

end

/-! ## Arguments that are read by themselves -/

/-- An argument is read by itself: a path, or an option with its value joined
    to it. -/
inductive Kind.IsAlone : Kind → Prop
  | plain : IsAlone .plain
  | joined {flag : Flag} (hflag : flag ≠ .help) (value : String) :
    IsAlone (.option flag (some value))

/-- What an argument is by its look, unless it is wrong wherever it stands. -/
def kindOf (arg : String) : Kind := (classify arg).toOption.getD .unknown

/-- What an argument sets: an option, or else the path. -/
def Kind.sets : Kind → Option Flag
  | .option flag _ => some flag
  | _ => none

namespace Progress

/-- Reads an argument that is read by itself. -/
def readAlone (p : Progress) : String × Kind → Progress
  | (arg, .plain) => p.take arg
  | (_, .option .logLevel (some value)) => { p with logLevel := .ofValue value }
  | (_, .option .expr (some value)) => { p with expr := some (.ofValue value) }
  | (_, .option .selfId (some value)) => { p with selfId := some (.ofValue value) }
  | _ => p

theorem readAlone_take (p : Progress) (arg : String) {a : String × Kind} (h : a.2.IsAlone)
    (hsets : a.2.sets ≠ none) : (p.take arg).readAlone a = (p.readAlone a).take arg := by
  obtain ⟨_, k⟩ := a
  cases h with
  | plain => exact absurd rfl hsets
  | @joined flag hflag value => cases p with | mk path => cases path <;> cases flag <;> rfl

/-- Two arguments that set different things can be read in either order. -/
theorem readAlone_comm (p : Progress) {a a' : String × Kind} (h : a.2.IsAlone) (h' : a'.2.IsAlone)
    (hne : a.2.sets ≠ a'.2.sets) :
    (p.readAlone a).readAlone a' = (p.readAlone a').readAlone a := by
  obtain ⟨arg, k⟩ := a
  obtain ⟨arg', k'⟩ := a'
  cases h with
  | plain => exact readAlone_take p arg h' hne.symm
  | @joined flag hflag value =>
    cases h' with
    | plain =>
      exact (readAlone_take p arg' (a := (arg, .option flag (some value))) (.joined hflag value)
        (Option.some_ne_none flag)).symm
    | @joined flag' hflag' value' =>
      cases flag <;> cases flag' <;> first | rfl | exact absurd rfl hne

end Progress

/-- Arguments that are read by themselves are read one after the other. -/
theorem readAll_eq_foldl {as : List (String × Kind)} (h : ∀ a ∈ as, a.2.IsAlone) (p : Progress) :
    readAll p as = .ok (as.foldl Progress.readAlone p) := by
  induction as generalizing p with
  | nil => rfl
  | cons a rest ih =>
    obtain ⟨ha, hrest⟩ := List.forall_mem_cons.1 h
    obtain ⟨arg, k⟩ := a
    rw [List.foldl_cons, ← ih hrest]
    cases ha with
    | plain =>
      -- The mark that ends the options does not follow.
      cases rest with
      | nil => cases p with | mk path => cases path <;> rfl
      | cons b rest =>
        obtain ⟨other, kb⟩ := b
        cases (List.forall_mem_cons.1 hrest).1 <;> cases p with | mk path => cases path <;> rfl
    | @joined flag hflag value =>
      cases flag with
      | help => exact absurd rfl hflag
      | logLevel | expr | selfId => rfl

/-- Where no argument is wrong by its look, each is classified by itself. -/
theorem classifyAll_eq_map {args : List String}
    (h : ∀ arg ∈ args, classify arg = .ok (kindOf arg) ∧ (kindOf arg).IsAlone) :
    classifyAll args = .ok (args.map fun arg => (arg, kindOf arg)) := by
  induction args with
  | nil => rfl
  | cons arg rest ih =>
    obtain ⟨⟨hclassify, halone⟩, hrest⟩ := List.forall_mem_cons.1 h
    have hmark : kindOf arg ≠ .mark := by
      intro hk
      rw [hk] at halone
      cases halone
    rw [classifyAll, hclassify, ih hrest]
    exact if_neg hmark

/-! ## Command lines -/

/-- The arguments that give the path of a scene, an expression and, where they
    are wanted, the shape that it belongs to and the least level that is noted
    down. -/
def asking (path e : String) (self level : Option String) : List String :=
  path :: joined .expr e ::
    ((self.map (joined .selfId)).toList ++ (level.map (joined .logLevel)).toList)

section

variable {path e : String} {self level : Option String}

theorem kindOf_joined (flag : Flag) (value : String) :
    kindOf (joined flag value) = .option flag (some value) := by
  rw [kindOf, classify_joined]
  rfl

theorem kindOf_path (hpath : classify path = .ok .plain) : kindOf path = .plain := by
  rw [kindOf, hpath]
  rfl

theorem isAlone_of_mem_asking (hpath : classify path = .ok .plain) :
    ∀ arg ∈ asking path e self level, classify arg = .ok (kindOf arg) ∧ (kindOf arg).IsAlone := by
  have hjoined : ∀ flag value, flag ≠ .help → classify (joined flag value) =
      .ok (kindOf (joined flag value)) ∧ (kindOf (joined flag value)).IsAlone := by
    intro flag value hflag
    rw [kindOf_joined]
    exact ⟨classify_joined flag value, .joined hflag value⟩
  have hplain : classify path = .ok (kindOf path) ∧ (kindOf path).IsAlone := by
    rw [kindOf_path hpath]
    exact ⟨hpath, .plain⟩
  cases self <;> cases level <;> simp [asking, hplain, hjoined]

/-- A command line that asks for a value sets nothing twice. -/
theorem nodup_sets_asking (hpath : classify path = .ok .plain) :
    ((asking path e self level).map fun arg => (kindOf arg).sets).Nodup := by
  cases self <;> cases level <;>
    simp [asking, kindOf_path hpath, kindOf_joined, Kind.sets]

/-- In whatever order they stand, the path of a scene and options that are
    joined to their values ask for what these are. -/
theorem parse_of_perm {args : List String} (hpath : classify path = .ok .plain)
    (hargs : args.Perm (asking path e self level)) :
    parse args = .ok
      { path
        logLevel := (level.map Setting.ofValue).getD (.text "WARNING")
        expr := some (.ofValue e)
        selfId := self.map Setting.ofValue } := by
  let pair (arg : String) : String × Kind := (arg, kindOf arg)
  have halone : ∀ arg ∈ args, classify arg = .ok (kindOf arg) ∧ (kindOf arg).IsAlone :=
    fun arg harg => isAlone_of_mem_asking hpath arg (hargs.subset harg)
  have hread : readAll {} (args.map pair) = .ok ((args.map pair).foldl Progress.readAlone {}) :=
    readAll_eq_foldl (List.forall_mem_map.2 fun arg harg => (halone arg harg).2) {}
  have horder : (args.map pair).foldl Progress.readAlone {} =
      ((asking path e self level).map pair).foldl Progress.readAlone {} := by
    refine (hargs.map pair).foldl_eq' (fun a ha a' ha' p => ?_) _
    obtain ⟨arg, harg, rfl⟩ := List.mem_map.1 ha
    obtain ⟨arg', harg', rfl⟩ := List.mem_map.1 ha'
    by_cases hsame : arg = arg'
    · rw [hsame]
    · refine p.readAlone_comm (halone arg harg).2 (halone arg' harg').2 fun hsets => hsame ?_
      exact List.inj_on_of_nodup_map (nodup_sets_asking hpath) (hargs.subset harg)
        (hargs.subset harg') hsets
  have hasked : ((asking path e self level).map pair).foldl Progress.readAlone {} =
      { path := some path
        logLevel := (level.map Setting.ofValue).getD (.text "WARNING")
        expr := some (.ofValue e)
        selfId := self.map Setting.ofValue } := by
    cases self <;> cases level <;>
      simp [asking, pair, kindOf_path hpath, kindOf_joined, Progress.readAlone, Progress.take]
  rw [horder, hasked] at hread
  rw [parse, classifyAll_eq_map halone]
  change (readAll {} (args.map pair) >>= _) = _
  rw [hread]
  rfl

end

end AnchorLayout.CommandLine
