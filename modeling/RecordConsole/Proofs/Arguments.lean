import RecordConsole.Arguments
import RecordConsole.Proofs.Entries

/-! What a tail's tokens stand for, by their neighbours alone. Reading goes from left to right and
takes one or two tokens at a time; here every token gets its role from itself and the token in front
of it, and every flag its form from the token behind its last occurrence. -/
namespace RecordConsole

def isFlag (token : String) : Bool := "--".toList.isPrefixOf token.toList

inductive TokenRole where
  | positional
  | flag
  | value
deriving DecidableEq, Repr

def TokenRole.of (previous : Option String) (token : String) : TokenRole :=
  if isFlag token then .flag else if previous.any isFlag then .value else .positional

def tokenRolesAfter (previous : Option String) (tokens : List String) : List (TokenRole × String) :=
  List.zipWith (fun previous token => (TokenRole.of previous token, token))
    (previous :: tokens.map some) tokens

def tokenRoles (tokens : List String) : List (TokenRole × String) := tokenRolesAfter none tokens

def tokensIn (role : TokenRole) (tokens : List String) : List String :=
  ((tokenRoles tokens).filter (·.1 = role)).map (·.2)

def Flag.before : List String → Flag
  | [] => present
  | next :: _ => if isFlag next then present else value next

def Argument.tokenRoles : Argument → List (TokenRole × String)
  | positional token => [(.positional, token)]
  | flag name .present => [(.flag, "--" ++ name)]
  | flag name (.value text) => [(.flag, "--" ++ name), (.value, text)]

/-! ## Flag tokens -/

theorem flagName?_eq_some_iff {token name : String} :
    flagName? token = some name ↔ token = "--" ++ name := by
  constructor
  · intro h
    unfold flagName? at h
    split at h
    · rename_i chars hchars
      obtain rfl := Option.some.inj h
      rw [← String.toList_inj, hchars]
      simp
    · cases h
  · rintro rfl
    simp [flagName?]

theorem isFlag_iff {token : String} : isFlag token = true ↔ ∃ name, token = "--" ++ name := by
  rw [isFlag, List.isPrefixOf_iff_prefix]
  constructor
  · rintro ⟨chars, hchars⟩
    have hname : (String.ofList chars).toList = chars := String.toList_ofList
    exact ⟨.ofList chars, by rw [← String.toList_inj, String.toList_append, hname, hchars]⟩
  · rintro ⟨name, rfl⟩
    rw [String.toList_append]
    exact List.prefix_append _ _

theorem isFlag_of_name {token name : String} (h : flagName? token = some name) :
    isFlag token = true :=
  isFlag_iff.mpr ⟨name, flagName?_eq_some_iff.mp h⟩

theorem flagName?_eq_none_iff {token : String} :
    flagName? token = none ↔ isFlag token = false := by
  rw [Option.eq_none_iff_forall_ne_some, ← Bool.not_eq_true, isFlag_iff]
  simp only [ne_eq, flagName?_eq_some_iff, not_exists]

theorem map_filterMap_flagName? (tokens : List String) :
    (tokens.filterMap flagName?).map ("--" ++ ·) = tokens.filter isFlag := by
  induction tokens with
  | nil => rfl
  | cons token rest ih =>
    cases hname : flagName? token with
    | none =>
      have hplain : ¬ isFlag token = true := by simp [flagName?_eq_none_iff.mp hname]
      rw [List.filterMap_cons_none hname, List.filter_cons_of_neg hplain, ih]
    | some name =>
      rw [List.filterMap_cons_some hname, List.filter_cons_of_pos (isFlag_of_name hname),
        List.map_cons, ih, flagName?_eq_some_iff.mp hname]

theorem mem_filterMap_flagName? {name : String} {tokens : List String} :
    name ∈ tokens.filterMap flagName? ↔ "--" ++ name ∈ tokens := by
  rw [List.mem_filterMap]
  constructor
  · rintro ⟨token, htoken, hname⟩
    rwa [← flagName?_eq_some_iff.mp hname]
  · intro h
    exact ⟨_, h, flagName?_eq_some_iff.mpr rfl⟩

/-! ## Roles -/

theorem tokenRolesAfter_cons (previous : Option String) (token : String) (rest : List String) :
    tokenRolesAfter previous (token :: rest) =
      (TokenRole.of previous token, token) :: tokenRolesAfter (some token) rest := rfl

/-- What stands in front matters only if it is a flag, and not to another flag. -/
theorem tokenRolesAfter_eq_tokenRoles {token : String} {rest : List String}
    (h : isFlag token = false ∨ ∀ next ∈ rest.head?, isFlag next = true) :
    tokenRolesAfter (some token) rest = tokenRoles rest := by
  cases rest with
  | nil => rfl
  | cons next more =>
    have hof : TokenRole.of (some token) next = TokenRole.of none next := by
      rcases h with hplain | hflag
      · simp [TokenRole.of, hplain]
      · simp [TokenRole.of, hflag next rfl]
    rw [tokenRoles, tokenRolesAfter_cons, tokenRolesAfter_cons, hof]

theorem tokenRoles_of_plain {token : String} (h : isFlag token = false) (rest : List String) :
    tokenRoles (token :: rest) = (.positional, token) :: tokenRoles rest := by
  rw [tokenRoles, tokenRolesAfter_cons, tokenRolesAfter_eq_tokenRoles (Or.inl h)]
  simp [TokenRole.of, h]

theorem tokenRoles_of_present {token : String} {rest : List String} (h : isFlag token = true)
    (hrest : ∀ next ∈ rest.head?, isFlag next = true) :
    tokenRoles (token :: rest) = (.flag, token) :: tokenRoles rest := by
  rw [tokenRoles, tokenRolesAfter_cons, tokenRolesAfter_eq_tokenRoles (Or.inr hrest)]
  simp [TokenRole.of, h]

theorem tokenRoles_of_value {token next : String} (h : isFlag token = true)
    (hnext : isFlag next = false) (more : List String) :
    tokenRoles (token :: next :: more) = (.flag, token) :: (.value, next) :: tokenRoles more := by
  rw [tokenRoles, tokenRolesAfter_cons, tokenRolesAfter_cons,
    tokenRolesAfter_eq_tokenRoles (Or.inl hnext)]
  simp [TokenRole.of, h, hnext]

/-- Reading takes every token once, in its role. -/
theorem Argument.flatMap_tokenRoles (tokens : List String) :
    (ofTokens tokens).flatMap Argument.tokenRoles = RecordConsole.tokenRoles tokens := by
  fun_induction ofTokens tokens with
  | case1 => rfl
  | case2 token rest hname ih =>
    rw [List.flatMap_cons, ih, tokenRoles_of_plain (flagName?_eq_none_iff.mp hname)]
    rfl
  | case3 token name hname =>
    rw [tokenRoles_of_present (isFlag_of_name hname) (by simp), flagName?_eq_some_iff.mp hname]
    rfl
  | case4 token name hname next more hnext ih =>
    rw [List.flatMap_cons, ih,
      tokenRoles_of_value (isFlag_of_name hname) (flagName?_eq_none_iff.mp hnext),
      flagName?_eq_some_iff.mp hname]
    rfl
  | case5 token name hname next more other hnext ih =>
    have hrest : ∀ first ∈ (next :: more).head?, isFlag first = true := by
      rintro first ⟨⟩
      exact isFlag_of_name hnext
    rw [List.flatMap_cons, ih, tokenRoles_of_present (isFlag_of_name hname) hrest,
      flagName?_eq_some_iff.mp hname]
    rfl

theorem Argument.filterMap_positional? (read : List Argument) :
    read.filterMap positional? =
      ((read.flatMap Argument.tokenRoles).filter (·.1 = .positional)).map (·.2) := by
  induction read with
  | nil => rfl
  | cons argument rest ih =>
    rw [List.flatMap_cons, List.filter_append, List.map_append, ← ih]
    rcases argument with token | ⟨name, form⟩
    · rfl
    · cases form <;> rfl

theorem map_snd_tokenRolesAfter (previous : Option String) (tokens : List String) :
    (tokenRolesAfter previous tokens).map (·.2) = tokens := by
  induction tokens generalizing previous with
  | nil => rfl
  | cons token rest ih => rw [tokenRolesAfter_cons, List.map_cons, ih]

theorem mem_of_mem_tokensIn {role : TokenRole} {token : String} {tokens : List String}
    (h : token ∈ tokensIn role tokens) : token ∈ tokens := by
  obtain ⟨marked, hmarked, rfl⟩ := List.mem_map.mp h
  rw [← map_snd_tokenRolesAfter none tokens]
  exact List.mem_map_of_mem (List.mem_filter.mp hmarked).1

theorem TokenRole.of_eq_flag_iff {previous : Option String} {token : String} :
    TokenRole.of previous token = .flag ↔ isFlag token = true := by
  unfold TokenRole.of
  by_cases h : isFlag token = true
  · simp [h]
  · rw [if_neg h]
    split <;> simp [h]

theorem tokensIn_flag (tokens : List String) : tokensIn .flag tokens = tokens.filter isFlag := by
  suffices h : ∀ previous, ((tokenRolesAfter previous tokens).filter (·.1 = .flag)).map (·.2) =
      tokens.filter isFlag from h none
  induction tokens with
  | nil => exact fun previous => rfl
  | cons token rest ih =>
    intro previous
    rw [tokenRolesAfter_cons, List.filter_cons, List.filter_cons, ← ih (some token)]
    simp only [TokenRole.of_eq_flag_iff, decide_eq_true_eq]
    split <;> rfl

theorem perm_filter_tokenRole (marked : List (TokenRole × String)) :
    marked.Perm (marked.filter (·.1 = .positional) ++ marked.filter (·.1 = .flag) ++
      marked.filter (·.1 = .value)) := by
  induction marked with
  | nil => exact List.Perm.nil
  | cons first rest ih =>
    obtain ⟨role, token⟩ := first
    have hfirst := ih.cons (role, token)
    cases role with
    | positional => simpa using hfirst
    | flag =>
      rw [List.append_assoc] at hfirst
      simpa using hfirst.trans List.perm_middle.symm
    | value => simpa using hfirst.trans List.perm_middle.symm

theorem perm_tokensIn (tokens : List String) :
    tokens.Perm (tokensIn .positional tokens ++ tokensIn .flag tokens ++ tokensIn .value tokens) := by
  have hperm := (perm_filter_tokenRole (tokenRoles tokens)).map (·.2)
  rwa [tokenRoles, map_snd_tokenRolesAfter, List.map_append, List.map_append] at hperm

/-! ## Forms -/

def flagForms : List String → List (String × Flag)
  | [] => []
  | token :: rest =>
    match flagName? token with
    | none => flagForms rest
    | some name => (name, .before rest) :: flagForms rest

theorem flagForms_cons_of_plain {token : String} (h : flagName? token = none) (rest : List String) :
    flagForms (token :: rest) = flagForms rest := by
  rw [flagForms, h]

theorem flagForms_cons_of_flag {token name : String} (h : flagName? token = some name)
    (rest : List String) : flagForms (token :: rest) = (name, .before rest) :: flagForms rest := by
  rw [flagForms, h]

theorem Argument.filterMap_flag? (tokens : List String) :
    (ofTokens tokens).filterMap flag? = flagForms tokens := by
  fun_induction ofTokens tokens with
  | case1 => rfl
  | case2 token rest hname ih =>
    rw [flagForms_cons_of_plain hname, ← ih]
    rfl
  | case3 token name hname =>
    rw [flagForms_cons_of_flag hname]
    rfl
  | case4 token name hname next more hnext ih =>
    have hplain : isFlag next = false := flagName?_eq_none_iff.mp hnext
    rw [flagForms_cons_of_flag hname, flagForms_cons_of_plain hnext, ← ih]
    simp [Flag.before, hplain, flag?]
  | case5 token name hname next more other hnext ih =>
    rw [flagForms_cons_of_flag hname, ← ih]
    simp [Flag.before, isFlag_of_name hnext, flag?]

theorem map_fst_flagForms (tokens : List String) :
    (flagForms tokens).map (·.1) = tokens.filterMap flagName? := by
  induction tokens with
  | nil => rfl
  | cons token rest ih =>
    rw [List.filterMap_cons]
    cases hname : flagName? token with
    | none => rw [flagForms_cons_of_plain hname, ih]
    | some name => rw [flagForms_cons_of_flag hname, List.map_cons, ih]

theorem exists_flagForms_append (before rest : List String) :
    ∃ earlier, flagForms (before ++ rest) = earlier ++ flagForms rest := by
  induction before with
  | nil => exact ⟨[], rfl⟩
  | cons token before ih =>
    obtain ⟨earlier, hearlier⟩ := ih
    rw [List.cons_append]
    cases hname : flagName? token with
    | none => exact ⟨earlier, by rw [flagForms_cons_of_plain hname, hearlier]⟩
    | some name =>
      refine ⟨(name, .before (before ++ rest)) :: earlier, ?_⟩
      rw [flagForms_cons_of_flag hname, hearlier, List.cons_append]

namespace Arguments

theorem flag?_ofTokens (tokens : List String) (name : String) :
    (ofTokens tokens).flag? name = (flagForms tokens).reverse.lookup name := by
  rw [flag?, ofTokens, lookup_entriesOf, Argument.filterMap_flag?]

theorem names_ofTokens (tokens : List String) :
    (ofTokens tokens).flags.map (·.1) = (tokens.filterMap flagName?).eraseDups := by
  rw [ofTokens, names_entriesOf, Argument.filterMap_flag?, map_fst_flagForms]

theorem flag?_eq_none_iff {tokens : List String} {name : String} :
    (ofTokens tokens).flag? name = none ↔ "--" ++ name ∉ tokens := by
  rw [flag?_ofTokens, ← mem_filterMap_flagName?, ← map_fst_flagForms, List.lookup_eq_none_iff,
    List.mem_map]
  constructor
  · rintro h ⟨pair, hpair, rfl⟩
    exact bne_iff_ne.mp (h pair (List.mem_reverse.mpr hpair)) rfl
  · intro h pair hpair
    refine bne_iff_ne.mpr ?_
    rintro rfl
    exact h ⟨pair, List.mem_reverse.mp hpair, rfl⟩

theorem flag?_of_last {name : String} {before after : List String}
    (h : "--" ++ name ∉ after) :
    (ofTokens (before ++ ("--" ++ name) :: after)).flag? name = some (.before after) := by
  have hname : flagName? ("--" ++ name) = some name := flagName?_eq_some_iff.mpr rfl
  have hafter : (flagForms after).reverse.lookup name = none := by
    rw [← flag?_ofTokens]
    exact flag?_eq_none_iff.mpr h
  obtain ⟨earlier, hforms⟩ := exists_flagForms_append before (("--" ++ name) :: after)
  rw [flag?_ofTokens, hforms, flagForms_cons_of_flag hname, List.reverse_append, List.reverse_cons,
    List.append_assoc, List.lookup_append, hafter, List.singleton_append, List.lookup_cons_self]
  rfl

/-- What the tokens say by themselves and their neighbours. -/
structure Local (tokens : List String) (args : Arguments) : Prop where
  /-- No flags and nothing right behind a flag. -/
  positional : args.positional = tokensIn .positional tokens
  /-- Each name once, in the order of the first occurrences. -/
  names : ∃ names : List String, tokens.filter isFlag = names.map ("--" ++ ·) ∧
    args.flags.map (·.1) = names.eraseDups
  absent : ∀ name, args.flag? name = none ↔ "--" ++ name ∉ tokens
  /-- The last occurrence of a flag decides, whatever stands in front of it. -/
  form : ∀ name before after, tokens = before ++ ("--" ++ name) :: after →
    "--" ++ name ∉ after → args.flag? name = some (.before after)
  keys : ∀ name, args.hasFlag name = true ↔ name ∈ args.flags.map (·.1)
  accounted : tokens.Perm (args.positional ++ tokens.filter isFlag ++ tokensIn .value tokens)

theorem positional_ofTokens (tokens : List String) :
    (ofTokens tokens).positional = tokensIn .positional tokens := by
  rw [ofTokens, Argument.filterMap_positional?, Argument.flatMap_tokenRoles]
  rfl

theorem hasFlag_iff {tokens : List String} {name : String} :
    (ofTokens tokens).hasFlag name = true ↔ name ∈ (ofTokens tokens).flags.map (·.1) := by
  rw [hasFlag, Option.isSome_iff_ne_none, ne_eq, flag?_eq_none_iff, not_not, names_ofTokens,
    List.mem_eraseDups, mem_filterMap_flagName?]

theorem local_ofTokens (tokens : List String) : Local tokens (ofTokens tokens) where
  positional := positional_ofTokens tokens
  names := ⟨_, (map_filterMap_flagName? tokens).symm, names_ofTokens tokens⟩
  absent _ := flag?_eq_none_iff
  form name before after hsplit hlast := by
    rw [hsplit]
    exact flag?_of_last hlast
  keys _ := hasFlag_iff
  accounted := by
    rw [positional_ofTokens, ← tokensIn_flag]
    exact perm_tokensIn tokens

/-- Positional arguments and flags are what the neighbours of each token make of it, and the
arguments that are read from the tokens take every token once, in its role. -/
theorem ofParts_local (parts : List String) :
    Local (Text.wordsOfParts parts) (ofParts parts) ∧
      (Argument.ofTokens (Text.wordsOfParts parts)).flatMap Argument.tokenRoles =
        tokenRoles (Text.wordsOfParts parts) :=
  ⟨local_ofTokens _, Argument.flatMap_tokenRoles _⟩

theorem ofParts_local_repeated :
    let args := ofParts ["a --depth 1 key", "--depth -- x y"]
    args.positional = ["a", "key", "y"] ∧ args.flags.map (·.1) = ["depth", ""] ∧
      args.flag? "depth" = some .present ∧ args.flag? "" = some (.value "x") := by
  have hlocal := (ofParts_local ["a --depth 1 key", "--depth -- x y"]).1
  have hdepth := hlocal.form "depth" ["a", "--depth", "1", "key"] ["--", "x", "y"]
    (by decide) (by decide)
  have hnameless := hlocal.form "" ["a", "--depth", "1", "key", "--depth"] ["x", "y"]
    (by decide) (by decide)
  exact ⟨hlocal.positional.trans (by decide), by decide, hdepth, hnameless⟩

end Arguments
end RecordConsole
