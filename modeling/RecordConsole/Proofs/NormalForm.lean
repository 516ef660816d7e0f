import RecordConsole.Proofs.Arguments
import RecordConsole.Proofs.Words

/-! A normal form of tails. Arguments that were read can be written down again, the positional ones
in front and every flag once, and reading what is written gives the same arguments. Positional
arguments cannot follow a flag there, so that none of them is taken for its value. -/
namespace RecordConsole

theorem mem_tokenRolesAfter {previous : Option String} {tokens : List String}
    {marked : TokenRole × String} (h : marked ∈ tokenRolesAfter previous tokens) :
    marked.2 ∈ tokens ∧ (marked.1 = .flag ↔ isFlag marked.2 = true) := by
  induction tokens generalizing previous with
  | nil => cases h
  | cons token rest ih =>
    rw [tokenRolesAfter_cons] at h
    rcases List.mem_cons.mp h with rfl | hrest
    · exact ⟨List.mem_cons_self, TokenRole.of_eq_flag_iff⟩
    · exact (ih hrest).imp_left (List.mem_cons_of_mem _)

namespace Argument

theorem mem_tokenRoles {tokens : List String} {argument : Argument} (h : argument ∈ ofTokens tokens)
    {marked : TokenRole × String} (hmarked : marked ∈ argument.tokenRoles) :
    marked.2 ∈ tokens ∧ (marked.1 ≠ .flag → flagName? marked.2 = none) := by
  have hread : marked ∈ RecordConsole.tokenRoles tokens := by
    rw [← flatMap_tokenRoles]
    exact List.mem_flatMap.mpr ⟨argument, h, hmarked⟩
  obtain ⟨hmem, hrole⟩ := mem_tokenRolesAfter hread
  refine ⟨hmem, fun hother => ?_⟩
  exact flagName?_eq_none_iff.mpr (Bool.eq_false_iff.mpr (mt hrole.mpr hother))

/-! ## Reading what is written -/

theorem ofTokens_positional_append {positional : List String}
    (h : ∀ token ∈ positional, flagName? token = none) (rest : List String) :
    ofTokens (positional ++ rest) = positional.map .positional ++ ofTokens rest := by
  induction positional with
  | nil => rfl
  | cons token others ih =>
    have hothers := ih fun other hother => h other (List.mem_cons_of_mem _ hother)
    rw [List.cons_append, ofTokens, h token List.mem_cons_self]
    simp only [hothers, List.map_cons, List.cons_append]

/-- A flag without a value stays without one in front of another flag, or of nothing. -/
theorem ofTokens_flag_append {name : String} {form : Flag}
    (hform : ∀ text ∈ form.value?, flagName? text = none) {rest : List String}
    (hrest : ∀ next ∈ rest.head?, flagName? next ≠ none) :
    ofTokens (("--" ++ name) :: (form.value?.toList ++ rest)) =
      .flag name form :: ofTokens rest := by
  have hname : flagName? ("--" ++ name) = some name := flagName?_eq_some_iff.mpr rfl
  cases form with
  | value text =>
    have htext : flagName? text = none := hform text rfl
    rw [ofTokens, hname]
    simp only [Flag.value?, Option.toList_some, List.singleton_append, htext]
  | present =>
    cases rest with
    | nil =>
      change ofTokens ["--" ++ name] = [.flag name .present]
      rw [ofTokens, hname]
    | cons next more =>
      obtain ⟨other, hother⟩ := Option.ne_none_iff_exists'.mp (hrest next rfl)
      rw [ofTokens, hname]
      simp only [Flag.value?, Option.toList_none, List.nil_append, hother]

theorem ofTokens_flags {flags : List (String × Flag)}
    (h : ∀ flag ∈ flags, ∀ text ∈ flag.2.value?, flagName? text = none) :
    ofTokens (flags.flatMap fun (name, form) => ("--" ++ name) :: form.value?.toList) =
      flags.map fun (name, form) => .flag name form := by
  induction flags with
  | nil => rfl
  | cons flag others ih =>
    have hothers := ih fun other hother => h other (List.mem_cons_of_mem _ hother)
    rw [List.flatMap_cons, List.cons_append, ofTokens_flag_append (h flag List.mem_cons_self),
      hothers, List.map_cons]
    cases others with
    | nil => simp
    | cons other more =>
      rintro next ⟨⟩
      rw [flagName?_eq_some_iff.mpr rfl]
      exact Option.some_ne_none other.1

end Argument

namespace Arguments

def tokens (args : Arguments) : List String :=
  args.positional ++ args.flags.flatMap fun (name, form) => ("--" ++ name) :: form.value?.toList

/-- No positional argument and no value starts like a flag, and no flag comes twice. -/
structure Normal (args : Arguments) : Prop where
  positional : ∀ token ∈ args.positional, flagName? token = none
  value : ∀ flag ∈ args.flags, ∀ text ∈ flag.2.value?, flagName? text = none
  names : (args.flags.map (·.1)).Nodup

/-! ## What is read is normal -/

section Read

variable {read : List String}

theorem positional_of_mem {token : String} (h : token ∈ (ofTokens read).positional) :
    .positional token ∈ Argument.ofTokens read := by
  obtain ⟨argument, hargument, htoken⟩ := List.mem_filterMap.mp h
  cases argument <;> cases htoken
  exact hargument

theorem flag_of_mem {flag : String × Flag} (h : flag ∈ (ofTokens read).flags) :
    .flag flag.1 flag.2 ∈ Argument.ofTokens read := by
  obtain ⟨argument, hargument, hflag⟩ := List.mem_filterMap.mp (mem_of_mem_entriesOf h)
  cases argument <;> cases hflag
  exact hargument

theorem positional_role {token : String} (h : token ∈ (ofTokens read).positional) :
    token ∈ read ∧ flagName? token = none := by
  have hmarked : (TokenRole.positional, token) ∈ (Argument.positional token).tokenRoles := by
    simp [Argument.tokenRoles]
  obtain ⟨hmem, hplain⟩ := Argument.mem_tokenRoles (positional_of_mem h) hmarked
  exact ⟨hmem, hplain (by simp)⟩

theorem flag_role {flag : String × Flag} (h : flag ∈ (ofTokens read).flags) :
    "--" ++ flag.1 ∈ read ∧ ∀ text ∈ flag.2.value?, text ∈ read ∧ flagName? text = none := by
  obtain ⟨name, form⟩ := flag
  have hread := flag_of_mem h
  constructor
  · have hmarked : (TokenRole.flag, "--" ++ name) ∈ (Argument.flag name form).tokenRoles := by
      cases form <;> simp [Argument.tokenRoles]
    exact (Argument.mem_tokenRoles hread hmarked).1
  · intro text htext
    have hmarked : (TokenRole.value, text) ∈ (Argument.flag name form).tokenRoles := by
      cases form <;> cases htext
      simp [Argument.tokenRoles]
    exact (Argument.mem_tokenRoles hread hmarked).imp_right fun hplain => hplain (by simp)

theorem normal_ofTokens (read : List String) : (ofTokens read).Normal where
  positional _ htoken := (positional_role htoken).2
  value _ hflag text htext := ((flag_role hflag).2 text htext).2
  names := nodup_entriesOf _

theorem mem_of_mem_tokens {token : String} (h : token ∈ (ofTokens read).tokens) :
    token ∈ read := by
  rcases List.mem_append.mp h with hpositional | hflags
  · exact (positional_role hpositional).1
  · obtain ⟨flag, hflag, htoken⟩ := List.mem_flatMap.mp hflags
    obtain ⟨hname, hvalue⟩ := flag_role hflag
    rcases List.mem_cons.mp htoken with rfl | htext
    · exact hname
    · exact (hvalue token (Option.mem_toList.mp htext)).1

end Read

/-! ## What is normal is read back -/

theorem ofTokens_tokens {args : Arguments} (h : args.Normal) : ofTokens args.tokens = args := by
  have hread : Argument.ofTokens args.tokens =
      args.positional.map .positional ++ args.flags.map fun (name, form) => .flag name form := by
    rw [tokens, Argument.ofTokens_positional_append h.positional, Argument.ofTokens_flags h.value]
  have hpositional : (Argument.ofTokens args.tokens).filterMap Argument.positional? =
      args.positional := by
    rw [hread, List.filterMap_append, List.filterMap_map, List.filterMap_map]
    simp [Function.comp_def, Argument.positional?]
  have hflags : (Argument.ofTokens args.tokens).filterMap Argument.flag? = args.flags := by
    rw [hread, List.filterMap_append, List.filterMap_map, List.filterMap_map]
    simp [Function.comp_def, Argument.flag?]
  rw [ofTokens, hpositional, hflags, entriesOf_of_nodup h.names]

/-- Arguments that were read can be written as tokens that are read as the same arguments, one by
one or as a tail with single blanks between them. -/
theorem read_tokens (parts : List String) :
    ofParts (ofParts parts).tokens = ofParts parts ∧
      ofTail (" ".intercalate (ofParts parts).tokens) = ofParts parts := by
  have hwords : ∀ token ∈ (ofParts parts).tokens, Text.words token = [token] := by
    intro token htoken
    obtain ⟨part, -, hpart⟩ := List.mem_flatMap.mp (mem_of_mem_tokens htoken)
    exact Text.words_of_mem_words hpart
  have hread : ofTokens (ofParts parts).tokens = ofParts parts :=
    ofTokens_tokens (normal_ofTokens _)
  constructor
  · rw [ofParts, Text.wordsOfParts_eq_self hwords]
    exact hread
  · rw [ofTail, Text.words_intercalate, Text.wordsOfParts_eq_self hwords]
    exact hread

example :
    (ofParts ["--depth 1 a", "-- x --depth"]).tokens = ["a", "--depth", "--", "x"] := by decide

end Arguments
end RecordConsole
