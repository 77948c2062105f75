import AgentLibOS.Capability.ShellRules
import AgentLibOS.Library.Run
import Mathlib.Data.List.Perm.Basic

namespace AgentLibOS.Capability

/-! ## The built-in verdict -/

section Builtin
variable {tables : TextTables} {argv0 : String} {rest : List String}

theorem firstIn_eq_none {values candidates : List String} :
    firstIn values candidates = none ↔ ∀ value ∈ values, value ∉ candidates := by
  unfold firstIn sortedKeys
  rw [List.find?_eq_none]
  constructor
  · intro none value member candidate
    have differs := none value ((List.mem_insertionSort _).mpr candidate)
    simp [member] at differs
  · intro none candidate member
    have listed := (List.mem_insertionSort _).mp member
    simpa using fun value => none candidate value listed

theorem firstShellSyntaxToken_eq_none {argv : List String} :
    firstShellSyntaxToken argv = none ↔ ∀ token ∈ argv, hasShellSyntax token = false := by
  simp [firstShellSyntaxToken]

/-- What is not denied stays as it is in an argv without shell syntax, and is asked otherwise. -/
theorem guardAutoAllow_effect (argv : List String) (selected : RuleMatch) :
    (guardAutoAllow argv selected).rule.effect =
      if selected.rule.effect = .deny ∨ firstShellSyntaxToken argv = none then selected.rule.effect
      else .ask := by
  unfold guardAutoAllow
  by_cases denied : selected.rule.effect = .deny
  · simp [denied]
  · cases firstShellSyntaxToken argv <;> simp [denied, RuleMatch.of]

/-- The verdicts of the built-in rules that a custom rule can turn into a permission. -/
def Permissive (selected : RuleMatch) : Prop :=
  selected.rule.effect = .allow ∨ selected.rule.ruleId = "shell.unknown.default"

theorem guardAutoAllow_permissive {argv : List String} {selected : RuleMatch}
    (permissive : Permissive (guardAutoAllow argv selected))
    (undenied : selected.rule.effect ≠ .deny) :
    firstShellSyntaxToken argv = none ∧ guardAutoAllow argv selected = selected := by
  unfold Permissive guardAutoAllow at permissive
  unfold guardAutoAllow
  rw [if_neg undenied] at permissive ⊢
  cases found : firstShellSyntaxToken argv with
  | none => exact ⟨rfl, rfl⟩
  | some token =>
      rw [found] at permissive
      rcases permissive with allowed | named
      · cases allowed
      · have unlike : "shell.syntax.default" ≠ "shell.unknown.default" := by decide
        exact absurd named unlike

/-- A guarded match that asks and is not the one of unknown commands is not permissive. -/
theorem guardAutoAllow_asked {argv : List String} {selected : RuleMatch}
    (asked : selected.rule.effect = .ask)
    (known : selected.rule.ruleId ≠ "shell.unknown.default") :
    ¬ Permissive (guardAutoAllow argv selected) := by
  intro permissive
  obtain ⟨-, same⟩ := guardAutoAllow_permissive permissive (by simp [asked])
  rw [same] at permissive
  rcases permissive with allowed | named
  · rw [asked] at allowed
    cases allowed
  · exact known named

/-- The command names no known executable and uses no shell syntax. -/
structure Plain (tables : TextTables) (argv : List String) : Prop where
  syntaxFree : firstShellSyntaxToken argv = none
  unnamed : ∀ token ∈ argv, normalizeExecutable tables token ∉ executables

/-- The tokens whose normal forms the built-in rules look up. -/
theorem named_tokens (token : String) (member : token ∈ argv0 :: rest)
    (known : normalizeExecutable tables token ∈ executables) :
    normalizeExecutable tables token ∈ normalizeExecutable tables argv0 ::
      nestedExecutables tables (normalizeArgv tables (argv0 :: rest)) := by
  rcases List.mem_cons.mp member with rfl | later
  · exact List.mem_cons_self
  · refine List.mem_cons_of_mem _ (List.mem_filter.mpr ⟨?_, decide_eq_true known⟩)
    exact List.mem_map_of_mem later

theorem medium_ne_unknown (direct : String) : "shell.medium." ++ direct ≠ "shell.unknown.default" := by
  intro same
  have letters := congrArg String.toList same
  simp at letters

/-- A permissive verdict is given to plain commands only, and permission to bare ones only. -/
theorem classifyBuiltin_permissive {found : RuleMatch}
    (verdict : classifyBuiltin tables argv0 rest = found) (permissive : Permissive found) :
    Plain tables (argv0 :: rest) ∧ (found.rule.effect = .allow → argv0HasPath argv0 = false) := by
  unfold classifyBuiltin at verdict
  dsimp only at verdict
  split at verdict
  · subst verdict
    have unlike : "shell.destructive.default" ≠ "shell.unknown.default" := by decide
    exact absurd permissive (by simp [Permissive, RuleMatch.of, unlike])
  rename_i undestructive
  split at verdict
  · subst verdict
    have unlike : "shell.network.default" ≠ "shell.unknown.default" := by decide
    exact absurd permissive (by simp [Permissive, RuleMatch.of, unlike])
  rename_i offline
  split at verdict
  · subst verdict
    exact absurd permissive (guardAutoAllow_asked rfl (medium_ne_unknown _))
  split at verdict
  · subst verdict
    have unlike : "shell.high.compileall" ≠ "shell.unknown.default" := by decide
    exact absurd permissive (guardAutoAllow_asked rfl unlike)
  split at verdict
  · subst verdict
    have unlike : "shell.package-manager.default" ≠ "shell.unknown.default" := by decide
    exact absurd permissive (guardAutoAllow_asked rfl unlike)
  rename_i unpackaged
  split at verdict
  · subst verdict
    have unlike : "shell.interpreter.default" ≠ "shell.unknown.default" := by decide
    exact absurd permissive (guardAutoAllow_asked rfl unlike)
  rename_i unscripted
  have unnamed : ∀ token ∈ argv0 :: rest, normalizeExecutable tables token ∉ executables := by
    intro token member known
    have named := named_tokens token member known
    rw [executables, List.mem_append, List.mem_append, List.mem_append] at known
    rcases known with ((script | network) | package) | destructive
    · exact firstIn_eq_none.mp unscripted _ named script
    · exact firstIn_eq_none.mp offline _ named network
    · exact firstIn_eq_none.mp unpackaged _ named package
    · exact firstIn_eq_none.mp undestructive _ named destructive
  split at verdict
  · rename_i harmless
    subst verdict
    obtain ⟨syntaxFree, -⟩ := guardAutoAllow_permissive permissive nofun
    exact ⟨⟨syntaxFree, unnamed⟩, fun _ => harmless.1⟩
  split at verdict
  · rename_i low
    subst verdict
    obtain ⟨syntaxFree, -⟩ := guardAutoAllow_permissive permissive nofun
    exact ⟨⟨syntaxFree, unnamed⟩, fun _ => low.1⟩
  · subst verdict
    obtain ⟨syntaxFree, same⟩ := guardAutoAllow_permissive permissive nofun
    refine ⟨⟨syntaxFree, unnamed⟩, fun allowed => ?_⟩
    rw [same] at allowed
    cases allowed

end Builtin

/-! ## The custom rules -/

section Custom
variable (engine : Engine) (limits : RegexLimits) (tables : TextTables) (context : Dict)

/-- A rule about shell runs. -/
def AuthorityRule.isShell (rule : AuthorityRule) : Bool := rule.operation = "shell.run"

/-- The rule lacks a part of its context. -/
def LacksContext (rule : AuthorityRule) : Bool :=
  rule.isShell && missingContextKeys rule context != []

/-- The rule has all of its context and matches. -/
def Applies (rule : AuthorityRule) : Bool :=
  rule.isShell && missingContextKeys rule context == [] &&
    match matchesRule engine limits tables context rule with
    | .ok matched => matched
    | .error _ => false

/-- The matching of the rule does not raise. -/
def Returns (rule : AuthorityRule) : Prop :=
  rule.isShell = true → missingContextKeys rule context = [] →
    ∃ matched, matchesRule engine limits tables context rule = .ok matched

variable {engine limits tables context}

/-- The loop collects the rules that apply, and notes whether a rule lacks context. -/
theorem matchCustom_ok {rules : List AuthorityRule} {matched : List RuleMatch} {missing : Bool}
    (done : matchCustom engine limits tables context rules = .ok (matched, missing)) :
    matched = (rules.filter (Applies engine limits tables context)).map
        (fun rule => ⟨rule, ruleArgv rule⟩) ∧
      missing = rules.any (LacksContext context) := by
  induction rules generalizing matched missing with
  | nil =>
      cases done
      exact ⟨rfl, rfl⟩
  | cons rule rules ih =>
      unfold matchCustom at done
      split at done
      · rename_i other
        obtain ⟨rfl, rfl⟩ := ih done
        have foreign : rule.isShell = false := by simpa [AuthorityRule.isShell] using other
        simp [Applies, LacksContext, foreign]
      · rename_i shell
        have shell : rule.isShell = true := by simpa [AuthorityRule.isShell] using shell
        split at done
        · rename_i lacks
          obtain ⟨⟨matched', missing'⟩, rest, there⟩ := Library.Run.bind_eq_ok.mp done
          obtain ⟨rfl, -⟩ := ih rest
          cases there
          simp [Applies, LacksContext, shell, lacks]
        · rename_i complete
          have complete := not_not.mp complete
          obtain ⟨here, matching, later⟩ := Library.Run.bind_eq_ok.mp done
          obtain ⟨⟨matched', missing'⟩, rest, there⟩ := Library.Run.bind_eq_ok.mp later
          obtain ⟨rfl, rfl⟩ := ih rest
          cases there
          cases here <;> simp [Applies, LacksContext, shell, complete, matching]

theorem matchCustom_returns {rules : List AuthorityRule} :
    (∃ result, matchCustom engine limits tables context rules = .ok result) ↔
      ∀ rule ∈ rules, Returns engine limits tables context rule := by
  induction rules with
  | nil => exact iff_of_true ⟨_, rfl⟩ nofun
  | cons rule rules ih =>
      rw [List.forall_mem_cons, ← ih, matchCustom]
      split
      · rename_i other
        have foreign : rule.isShell = false := by simpa [AuthorityRule.isShell] using other
        have returns : Returns engine limits tables context rule :=
          fun shell => absurd shell (by simp [foreign])
        exact (and_iff_right returns).symm
      · rename_i shell
        have shell : rule.isShell = true := by simpa [AuthorityRule.isShell] using shell
        split
        · rename_i lacks
          have returns : Returns engine limits tables context rule :=
            fun _ complete => absurd complete lacks
          rw [and_iff_right returns]
          constructor
          · rintro ⟨result, done⟩
            obtain ⟨first, rest, -⟩ := Library.Run.bind_eq_ok.mp done
            exact ⟨first, rest⟩
          · rintro ⟨result, rest⟩
            exact ⟨_, Library.Run.bind_eq_ok.mpr ⟨result, rest, rfl⟩⟩
        · rename_i complete
          constructor
          · rintro ⟨result, done⟩
            obtain ⟨here, matching, later⟩ := Library.Run.bind_eq_ok.mp done
            obtain ⟨first, rest, -⟩ := Library.Run.bind_eq_ok.mp later
            exact ⟨fun _ _ => ⟨here, matching⟩, first, rest⟩
          · rintro ⟨returns, result, rest⟩
            obtain ⟨here, matching⟩ := returns shell (not_not.mp complete)
            exact ⟨_, Library.Run.bind_eq_ok.mpr
              ⟨here, matching, Library.Run.bind_eq_ok.mpr ⟨result, rest, rfl⟩⟩⟩

/-! ## The verdict -/

def CapabilityEffect.strictness : CapabilityEffect → Nat
  | .allow => 0
  | .ask => 1
  | .deny => 2

/-- The built-in rules ask, and not merely because they do not know the command. -/
def AsksKnown (builtin : RuleMatch) : Prop :=
  builtin.rule.effect = .ask ∧ builtin.rule.ruleId ≠ "shell.unknown.default"

instance (builtin : RuleMatch) : Decidable (AsksKnown builtin) :=
  inferInstanceAs (Decidable (_ ∧ _))

/-- The effect of a classification, from the effects of the custom rules that apply and from whether
one of them lacks context. -/
def verdict (builtin : RuleMatch) (syntaxFree : Bool) (applies : CapabilityEffect → Bool)
    (missing : Bool) : CapabilityEffect :=
  if applies .deny = true then .deny
  else if applies .ask = true ∨ applies .allow = true then
    if AsksKnown builtin then .ask
    else if missing = true then .deny
    else if applies .ask = true ∨ syntaxFree = false then .ask
    else .allow
  else if missing = true then .deny
  else builtin.rule.effect

/-- Some match has the effect. -/
def Occurs (matched : List RuleMatch) (effect : CapabilityEffect) : Bool :=
  matched.any (·.rule.effect = effect)

theorem find_effect (matched : List RuleMatch) (effect : CapabilityEffect) :
    (∃ selected, matched.find? (·.rule.effect = effect) = some selected ∧
        selected.rule.effect = effect ∧ Occurs matched effect = true) ∨
      matched.find? (·.rule.effect = effect) = none ∧ Occurs matched effect = false := by
  unfold Occurs
  cases found : matched.find? (·.rule.effect = effect) with
  | none =>
      refine Or.inr ⟨rfl, ?_⟩
      simpa using found
  | some selected =>
      have same := List.find?_some found
      refine Or.inl ⟨selected, rfl, by simpa using same, ?_⟩
      exact List.any_eq_true.mpr ⟨selected, List.mem_of_find?_eq_some found, same⟩

theorem decideCustom_effect (tables : TextTables) (argv0 : String) (rest : List String)
    (builtin : RuleMatch) (matched : List RuleMatch) (missing : Bool) :
    (decideCustom tables argv0 rest builtin matched missing).rule.effect =
      verdict builtin (firstShellSyntaxToken (argv0 :: rest) = none) (Occurs matched) missing := by
  unfold decideCustom strictest verdict
  rw [List.findSome?_cons, List.findSome?_cons, List.findSome?_cons, List.findSome?_nil]
  rcases find_effect matched .deny with ⟨selected, found, same, occurs⟩ | ⟨found, denies⟩
  · simp [found, same, occurs]
  rcases find_effect matched .ask with ⟨selected, found', same, occurs⟩ | ⟨found', asks⟩
  · rw [found, found']
    simp only [same, denies, occurs, Bool.false_eq_true, reduceCtorEq, if_false, true_or, if_true]
    by_cases known : builtin.rule.effect = .ask ∧ builtin.rule.ruleId ≠ "shell.unknown.default"
    · have asksKnown : AsksKnown builtin := known
      rw [if_pos known, if_pos asksKnown, known.1]
    · have asksUnknown : ¬ AsksKnown builtin := known
      rw [if_neg known, if_neg asksUnknown]
      cases missing
      · simp [guardAutoAllow_effect, same]
      · rfl
  rcases find_effect matched .allow with ⟨selected, found'', same, occurs⟩ | ⟨found'', allows⟩
  · rw [found, found', found'']
    simp only [same, denies, asks, occurs, Bool.false_eq_true, reduceCtorEq, if_false, false_or,
      if_true]
    by_cases known : builtin.rule.effect = .ask ∧ builtin.rule.ruleId ≠ "shell.unknown.default"
    · have asksKnown : AsksKnown builtin := known
      rw [if_pos known, if_pos asksKnown, known.1]
    · have asksUnknown : ¬ AsksKnown builtin := known
      rw [if_neg known, if_neg asksUnknown]
      cases missing
      · by_cases free : firstShellSyntaxToken (argv0 :: rest) = none <;>
          simp [guardAutoAllow_effect, same, free]
      · rfl
  · rw [found, found', found'']
    simp only [denies, asks, allows, Bool.false_eq_true, if_false, or_self]
    cases missing <;> rfl

variable (engine limits tables context) in
/-- Some custom rule of the effect applies. -/
def Custom (rules : List AuthorityRule) (effect : CapabilityEffect) : Bool :=
  rules.any fun rule => Applies engine limits tables context rule && rule.effect = effect

theorem occurs_matched (rules : List AuthorityRule) (effect : CapabilityEffect) :
    Occurs ((rules.filter (Applies engine limits tables context)).map
      (fun rule => ⟨rule, ruleArgv rule⟩)) effect =
      Custom engine limits tables context rules effect := by
  unfold Occurs Custom
  rw [List.any_map, List.any_filter]
  rfl

/-- The effect of a classification. -/
theorem classify_effect {rules : ShellRuleEngine engine limits} {argv0 : String}
    {rest : List String} {found : RuleMatch}
    (done : rules.classify engine limits tables context (argv0 :: rest) = .ok found) :
    found.rule.effect =
      if (classifyBuiltin tables argv0 rest).rule.effect = .deny then .deny
      else verdict (classifyBuiltin tables argv0 rest)
        (firstShellSyntaxToken (argv0 :: rest) = none)
        (Custom engine limits tables (selectedContext (argv0 :: rest) context) rules.customRules)
        (rules.customRules.any (LacksContext (selectedContext (argv0 :: rest) context))) := by
  unfold ShellRuleEngine.classify at done
  dsimp only at done
  split_ifs at done ⊢ with denied
  · cases done
    exact denied
  · split at done
    · cases done
    · rename_i matched missing collected
      cases done
      obtain ⟨rfl, rfl⟩ := matchCustom_ok collected
      rw [decideCustom_effect]
      congr 1
      exact funext (occurs_matched rules.customRules)

/-- A classification that permits: nothing is denied or asked, and no rule lacks context. -/
theorem verdict_allow {builtin : RuleMatch} {syntaxFree : Bool}
    {applies : CapabilityEffect → Bool} {missing : Bool} (undenied : builtin.rule.effect ≠ .deny)
    (allowed : verdict builtin syntaxFree applies missing = .allow) :
    Permissive builtin ∧ applies .deny = false ∧ applies .ask = false ∧ missing = false := by
  unfold verdict at allowed
  split_ifs at allowed with denies custom known lacks stricter lacks
  · simp only [not_or, Bool.not_eq_true] at stricter
    refine ⟨?_, by simpa using denies, stricter.1, by simpa using lacks⟩
    rcases asks : builtin.rule.effect with _ | _ | _
    · exact Or.inl asks
    · exact absurd asks undenied
    · exact Or.inr (not_not.mp fun other => known ⟨asks, other⟩)
  · simp only [not_or, Bool.not_eq_true] at custom
    exact ⟨Or.inl allowed, by simpa using denies, custom.1, by simpa using lacks⟩

/-- A command that custom rules let pass uses no shell syntax, names no known executable, is not
refused by any custom rule, and is permitted by the built-in rules or unknown to them. -/
theorem custom_rules_never_launder (rules : ShellRuleEngine engine limits) (context : Dict)
    (argv0 : String) (rest : List String) (found : RuleMatch)
    (classified : rules.classify engine limits tables context (argv0 :: rest) = .ok found)
    (allowed : found.rule.effect = .allow) :
    (∀ token ∈ argv0 :: rest, hasShellSyntax token = false) ∧
    (∀ token ∈ argv0 :: rest, normalizeExecutable tables token ∉ executables) ∧
    (∀ rule ∈ rules.customRules, rule.operation = "shell.run" →
      missingContextKeys rule (selectedContext (argv0 :: rest) context) = [] ∧
      (matchesRule engine limits tables (selectedContext (argv0 :: rest) context) rule = .ok true →
        rule.effect = .allow)) ∧
    ((classifyBuiltin tables argv0 rest).rule.effect = .allow ∧ argv0HasPath argv0 = false ∨
      (classifyBuiltin tables argv0 rest).rule.ruleId = "shell.unknown.default") := by
  have effect := classify_effect classified
  rw [allowed] at effect
  split_ifs at effect with denied
  obtain ⟨permissive, denies, asks, lacks⟩ := verdict_allow denied effect.symm
  obtain ⟨plain, bare⟩ := classifyBuiltin_permissive rfl permissive
  refine ⟨firstShellSyntaxToken_eq_none.mp plain.syntaxFree, plain.unnamed, ?_, ?_⟩
  · intro rule member shell
    have shell : rule.isShell = true := by simpa [AuthorityRule.isShell] using shell
    have complete : missingContextKeys rule (selectedContext (argv0 :: rest) context) = [] := by
      have has := List.any_eq_false.mp lacks rule member
      simpa [LacksContext, shell] using has
    refine ⟨complete, fun matched => ?_⟩
    have denies := List.any_eq_false.mp denies rule member
    have asks := List.any_eq_false.mp asks rule member
    cases effect : rule.effect <;> simp [Applies, shell, complete, matched, effect] at denies asks ⊢
  · exact permissive.imp_left fun allowed => ⟨allowed, bare allowed⟩

/-! ## One more restrictive rule -/

theorem strictness_le_deny (effect : CapabilityEffect) :
    effect.strictness ≤ CapabilityEffect.deny.strictness := by
  cases effect <;> decide

theorem strictness_le_ask {effect : CapabilityEffect} (undenied : effect ≠ .deny) :
    effect.strictness ≤ CapabilityEffect.ask.strictness := by
  cases effect with
  | deny => exact absurd rfl undenied
  | _ => decide

/-- A rule that lacks context denies what is not decided before. -/
theorem verdict_lacks (builtin : RuleMatch) (syntaxFree : Bool)
    (applies : CapabilityEffect → Bool) (missing lacks : Bool) :
    (verdict builtin syntaxFree applies missing).strictness ≤
      (verdict builtin syntaxFree applies (missing || lacks)).strictness := by
  cases lacks with
  | false => rw [Bool.or_false]
  | true =>
      unfold verdict
      simp only [Bool.or_true, if_true]
      split_ifs <;> first | exact le_rfl | exact strictness_le_deny _

/-- A rule that applies and denies decides, one that asks leaves a missing context out of account
where the built-in rules ask. -/
theorem verdict_applies {builtin : RuleMatch} {syntaxFree : Bool}
    {applies applies' : CapabilityEffect → Bool} {effect : CapabilityEffect} {missing : Bool}
    (undenied : builtin.rule.effect ≠ .deny) (restrictive : effect ≠ .allow)
    (more : ∀ other, applies' other = (applies other || effect = other)) :
    (verdict builtin syntaxFree applies missing).strictness ≤
        (verdict builtin syntaxFree applies' missing).strictness ↔
      ¬ (AsksKnown builtin ∧ effect = .ask ∧ missing = true ∧ ∀ other, applies other = false) := by
  cases effect with
  | allow => exact absurd rfl restrictive
  | deny =>
      have denies : applies' .deny = true := by simp [more]
      refine iff_of_true ?_ (by simp)
      conv_rhs => unfold verdict
      rw [if_pos denies]
      exact strictness_le_deny _
  | ask =>
      have asks : applies' .ask = true := by simp [more]
      have denies : applies' .deny = applies .deny := by simp [more]
      unfold verdict
      rw [denies, if_pos (Or.inl asks : applies' .ask = true ∨ applies' .allow = true),
        if_pos (Or.inl asks : applies' .ask = true ∨ syntaxFree = false)]
      by_cases denied : applies .deny = true
      · rw [if_pos denied, if_pos denied]
        refine iff_of_true le_rfl fun defect => ?_
        rw [defect.2.2.2 .deny] at denied
        cases denied
      rw [if_neg denied, if_neg denied]
      by_cases custom : applies .ask = true ∨ applies .allow = true
      · rw [if_pos custom]
        refine iff_of_true ?_ fun defect => ?_
        · split_ifs <;> decide
        · simp [defect.2.2.2] at custom
      · rw [if_neg custom]
        have unapplied : ∀ other, applies other = false := by
          simp only [not_or, Bool.not_eq_true] at custom denied
          intro other
          cases other
          · exact custom.2
          · exact denied
          · exact custom.1
        by_cases known : AsksKnown builtin
        · rw [if_pos known]
          cases missing
          · simp [known.1]
          · simp [known, unapplied, CapabilityEffect.strictness]
        · rw [if_neg known]
          refine iff_of_true ?_ fun defect => known defect.1
          cases missing
          · exact strictness_le_ask undenied
          · exact le_rfl

theorem custom_insert (front back : List AuthorityRule) (rule : AuthorityRule)
    (effect : CapabilityEffect) :
    Custom engine limits tables context (front ++ rule :: back) effect =
      (Custom engine limits tables context (front ++ back) effect ||
        (Applies engine limits tables context rule && rule.effect = effect)) := by
  unfold Custom
  rw [List.any_append, List.any_append, List.any_cons, Bool.or_left_comm, Bool.or_comm]

theorem lacks_insert (front back : List AuthorityRule) (rule : AuthorityRule) :
    (front ++ rule :: back).any (LacksContext context) =
      ((front ++ back).any (LacksContext context) || LacksContext context rule) := by
  rw [List.any_append, List.any_append, List.any_cons, Bool.or_left_comm, Bool.or_comm]

variable (engine limits tables context) in
/-- The built-in rules ask about a command they know, the rule asks too, and it is the only custom
rule that applies while another one lacks context. -/
def HidesMissing (rules : List AuthorityRule) (rule : AuthorityRule) : List String → Prop
  | [] => False
  | argv0 :: rest =>
      let selected := selectedContext (argv0 :: rest) context
      AsksKnown (classifyBuiltin tables argv0 rest) ∧ rule.effect = .ask ∧
        Applies engine limits tables selected rule = true ∧
        (∃ other ∈ rules, LacksContext selected other = true) ∧
        ∀ other ∈ rules, Applies engine limits tables selected other = false

/-- Whether a rule applies is one question for all effects. -/
theorem custom_none {rules : List AuthorityRule} :
    (∀ effect, Custom engine limits tables context rules effect = false) ↔
      ∀ rule ∈ rules, Applies engine limits tables context rule = false := by
  unfold Custom
  constructor
  · intro none rule member
    have unapplied := List.any_eq_false.mp (none rule.effect) rule member
    simpa using unapplied
  · intro none effect
    refine List.any_eq_false.mpr fun rule member => ?_
    simp [none rule member]

theorem applies_complete {rule : AuthorityRule}
    (applies : Applies engine limits tables context rule = true) :
    LacksContext context rule = false := by
  unfold Applies at applies
  rw [Bool.and_eq_true, Bool.and_eq_true, beq_iff_eq] at applies
  simp [LacksContext, applies.1.2]

theorem any_perm {left right : List AuthorityRule} (perm : left.Perm right)
    (p : AuthorityRule → Bool) : left.any p = right.any p := by
  rw [Bool.eq_iff_iff, List.any_eq_true, List.any_eq_true]
  exact exists_congr fun rule => and_congr_left fun _ => perm.mem_iff

/-- A classification returns for every order of the rules or for none. -/
theorem classify_perm {left right : ShellRuleEngine engine limits}
    (perm : left.customRules.Perm right.customRules) {argv : List String} {found : RuleMatch}
    (done : left.classify engine limits tables context argv = .ok found) :
    ∃ found', right.classify engine limits tables context argv = .ok found' := by
  cases argv with
  | nil => cases done
  | cons argv0 rest =>
      unfold ShellRuleEngine.classify at done ⊢
      dsimp only at done ⊢
      split_ifs at done ⊢
      · exact ⟨_, rfl⟩
      · split at done
        · cases done
        · rename_i matched missing collected
          have returns := matchCustom_returns.mp ⟨_, collected⟩
          obtain ⟨⟨matched', missing'⟩, collected'⟩ := matchCustom_returns.mpr
            fun rule member => returns rule (perm.mem_iff.mpr member)
          rw [collected']
          exact ⟨_, rfl⟩

/-- One more rule that denies or asks does not make the verdict less strict, unless it hides that
another rule lacks context. -/
theorem classify_insert_iff {smaller larger : ShellRuleEngine engine limits}
    {front back : List AuthorityRule} {rule : AuthorityRule} {argv : List String}
    {before after : RuleMatch} (restrictive : rule.effect ≠ .allow)
    (small : smaller.customRules = front ++ back)
    (large : larger.customRules = front ++ rule :: back)
    (first : smaller.classify engine limits tables context argv = .ok before)
    (second : larger.classify engine limits tables context argv = .ok after) :
    before.rule.effect.strictness ≤ after.rule.effect.strictness ↔
      ¬ HidesMissing engine limits tables context smaller.customRules rule argv := by
  cases argv with
  | nil => cases first
  | cons argv0 rest =>
      rw [classify_effect first, classify_effect second, small, large, lacks_insert]
      unfold HidesMissing
      by_cases denied : (classifyBuiltin tables argv0 rest).rule.effect = .deny
      · rw [if_pos denied, if_pos denied]
        refine iff_of_true le_rfl fun hides => ?_
        rw [hides.1.1] at denied
        cases denied
      rw [if_neg denied, if_neg denied]
      cases applies : Applies engine limits tables (selectedContext (argv0 :: rest) context) rule with
      | false =>
          have same : Custom engine limits tables (selectedContext (argv0 :: rest) context)
              (front ++ rule :: back) = Custom engine limits tables
                (selectedContext (argv0 :: rest) context) (front ++ back) := by
            funext effect
            rw [custom_insert, applies, Bool.false_and, Bool.or_false]
          rw [same]
          refine iff_of_true (verdict_lacks _ _ _ _ _) ?_
          rintro ⟨-, -, applied, -⟩
          rw [applies] at applied
          cases applied
      | true =>
          have complete : LacksContext (selectedContext (argv0 :: rest) context) rule = false :=
            applies_complete applies
          rw [complete, Bool.or_false, verdict_applies denied restrictive fun effect => by
            rw [custom_insert, applies, Bool.true_and], custom_none, List.any_eq_true]
          simp only [applies, true_and]

/-- Restrictive custom rules are monotone but for the rules that hide a missing context, and their
order does not matter. -/
theorem restrictive_rules_monotone (engine : Engine) (limits : RegexLimits) (tables : TextTables)
    (context : Dict) (argv : List String) :
    (∀ (smaller larger : ShellRuleEngine engine limits) (front back : List AuthorityRule)
      (rule : AuthorityRule) (before after : RuleMatch), rule.effect ≠ .allow →
      smaller.customRules = front ++ back → larger.customRules = front ++ rule :: back →
      smaller.classify engine limits tables context argv = .ok before →
      larger.classify engine limits tables context argv = .ok after →
      (before.rule.effect.strictness ≤ after.rule.effect.strictness ↔
        ¬ HidesMissing engine limits tables context smaller.customRules rule argv)) ∧
    ∀ (left right : ShellRuleEngine engine limits) (found : RuleMatch),
      left.customRules.Perm right.customRules →
      left.classify engine limits tables context argv = .ok found →
      ∃ found', right.classify engine limits tables context argv = .ok found' ∧
        found'.rule.effect = found.rule.effect := by
  constructor
  · intro smaller larger front back rule before after restrictive small large first second
    exact classify_insert_iff restrictive small large first second
  · intro left right found perm done
    cases argv with
    | nil => cases done
    | cons argv0 rest =>
        obtain ⟨found', done'⟩ := classify_perm perm done
        refine ⟨found', done', ?_⟩
        have custom : Custom engine limits tables (selectedContext (argv0 :: rest) context)
            right.customRules = Custom engine limits tables
              (selectedContext (argv0 :: rest) context) left.customRules :=
          funext fun effect => any_perm perm.symm _
        rw [classify_effect done, classify_effect done', custom, any_perm perm.symm]

end Custom

/-! ## A missing context that an approval hides -/

def lowerTables : TextTables where
  casefold := fun text => String.ofList (text.toList.map Char.toLower)
  windowsPath := fun text => (text, false)

def allowTool : AuthorityRule where
  ruleId := "custom.tool.allow"
  operation := "shell.run"
  effect := .allow
  risk := .low
  conditions := [("argv", .list [.str "tool", .str "inspect"]), ("match", .str "prefix")]
  description := ""

def toolRules : ShellRuleEngine (plainEngine "") {} where
  customRules := [allowTool]
  accepted := by
    intro rule member
    obtain rfl := List.mem_singleton.mp member
    exact ⟨rfl, rfl⟩

theorem custom_rules_never_launder_tool :
    hasShellSyntax "tool" = false ∧ normalizeExecutable lowerTables "tool" ∉ executables := by
  have plain := @custom_rules_never_launder (plainEngine "") {} lowerTables toolRules [] "tool" ["inspect"] _
    rfl rfl
  exact ⟨plain.1 _ List.mem_cons_self, plain.2.1 _ List.mem_cons_self⟩

/-- A denial for one working directory, which the context does not name. -/
def denyElsewhere : AuthorityRule where
  ruleId := "custom.cwd.deny"
  operation := "shell.run"
  effect := .deny
  risk := .high
  conditions := [("cwd", .str "secret")]
  description := ""

def askCurl : AuthorityRule where
  ruleId := "custom.curl.ask"
  operation := "shell.run"
  effect := .ask
  risk := .high
  conditions := [("argv", .list [.str "curl"]), ("match", .str "exact")]
  description := ""

def strictRules : ShellRuleEngine (plainEngine "") {} where
  customRules := [denyElsewhere]
  accepted := by
    intro rule member
    obtain rfl := List.mem_singleton.mp member
    exact ⟨rfl, rfl⟩

def stricterRules : ShellRuleEngine (plainEngine "") {} where
  customRules := [denyElsewhere, askCurl]
  accepted := by
    intro rule member
    rcases List.mem_cons.mp member with rfl | member
    · exact ⟨rfl, rfl⟩
    · obtain rfl := List.mem_singleton.mp member
      exact ⟨rfl, rfl⟩

/-- Without `askCurl` the command is denied, with it the command is asked about. -/
theorem ask_rule_weakens : ∃ before after,
    strictRules.classify (plainEngine "") {} lowerTables [] ["curl"] = .ok before ∧
    stricterRules.classify (plainEngine "") {} lowerTables [] ["curl"] = .ok after ∧
    stricterRules.customRules = strictRules.customRules ++ [askCurl] ∧ askCurl.effect = .ask ∧
    ¬ before.rule.effect.strictness ≤ after.rule.effect.strictness :=
  ⟨_, _, rfl, rfl, rfl, rfl, by decide⟩

end AgentLibOS.Capability
