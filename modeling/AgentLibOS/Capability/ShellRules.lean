import AgentLibOS.Capability.Rules

namespace AgentLibOS.Capability

/-! ## Executables -/

def windowsExecutableSuffixes : List String := [".exe", ".cmd", ".bat", ".com", ".ps1"]

def networkExecutables : List String :=
  ["curl", "wget", "ssh", "scp", "sftp", "nc", "ncat", "netcat"]

def scriptExecutables : List String :=
  ["bash", "sh", "zsh", "fish", "cmd", "powershell", "pwsh", "python", "python3", "py", "node",
    "ruby", "perl", "php"]

def packageExecutables : List String :=
  ["npm", "npx", "yarn", "pnpm", "pip", "pip3", "uv", "cargo"]

def destructiveExecutables : List String :=
  ["rm", "del", "rmdir", "remove-item", "move-item", "chmod", "chown", "icacls", "reg", "regedit",
    "taskkill", "sudo", "su", "runas", "docker", "kubectl"]

def executables : List String :=
  scriptExecutables ++ networkExecutables ++ packageExecutables ++ destructiveExecutables

/-- Case folding of Unicode, and `as_posix()` of a `PureWindowsPath` with whether it is absolute. -/
structure TextTables where
  casefold : String → String
  windowsPath : String → String × Bool

/-- The parts of a `PurePosixPath`: neither empty nor a single dot. -/
def posixParts (text : String) : List (List Char) :=
  (text.toList.splitOn '/').filter fun part => part ≠ [] ∧ part ≠ ['.']

/-- `PurePath(value).name`. -/
def pathName (text : String) : String := String.ofList ((posixParts text).getLast?.getD [])

/-- `as_posix()` of a `PurePosixPath`. Exactly two leading slashes are kept. -/
def posixPath (text : String) : String :=
  let root := match text.toList with
    | '/' :: '/' :: '/' :: _ => "/"
    | '/' :: '/' :: _ => "//"
    | '/' :: _ => "/"
    | _ => ""
  let path := root ++ String.ofList (['/'].intercalate (posixParts text))
  if path = "" then "." else path

def isPosixAbsolute (text : String) : Bool := text.toList.head? == some '/'

/-- `value[: -len(suffix)]` for the first suffix that the value ends with. -/
def stripWindowsExecutableSuffix (value : String) : String :=
  match windowsExecutableSuffixes.find? fun suffix => suffix.toList.isSuffixOf value.toList with
  | none => value
  | some suffix => String.ofList (value.toList.take (value.length - suffix.length))

def argv0HasPath (value : String) : Bool :=
  value.toList.contains '/' || value.toList.contains '\\' || isPosixAbsolute value

/-- A backslash anywhere, or a drive letter with a colon and a separator. -/
def isWindowsPath (value : String) : Bool :=
  value.toList.contains '\\' || match value.toList with
    | drive :: ':' :: separator :: _ =>
        (('A' ≤ drive && drive ≤ 'Z') || ('a' ≤ drive && drive ≤ 'z')) &&
          (separator == '\\' || separator == '/')
    | _ => false

/-- `value.replace("\\", "/")`. -/
def forwardSlashes (value : String) : String :=
  String.ofList (value.toList.map fun c => if c = '\\' then '/' else c)

section Normalization
variable (tables : TextTables)

def normalizeExecutable (value : String) : String :=
  let raw := forwardSlashes (strip value)
  let name := if pathName raw = "" then raw else pathName raw
  stripWindowsExecutableSuffix (tables.casefold name)

def normalizeArgv0Identity (value : String) : String :=
  let raw := strip value
  if argv0HasPath raw = false then "bare:" ++ normalizeExecutable tables raw
  else if isWindowsPath raw then
    let path := tables.windowsPath raw
    (if path.2 then "windows-absolute:" else "windows-relative:") ++
      stripWindowsExecutableSuffix (tables.casefold path.1)
  else (if isPosixAbsolute raw then "posix-absolute:" else "posix-relative:") ++ posixPath raw

def normalizeCustomArgv : List String → List String
  | [] => []
  | argv0 :: rest => normalizeArgv0Identity tables argv0 :: rest

def normalizeArgv : List String → List String
  | [] => []
  | argv0 :: rest => normalizeExecutable tables argv0 :: rest

/-- `_nested_executables`: the later tokens that name a known executable. -/
def nestedExecutables (argv : List String) : List String :=
  ((argv.drop 1).map (normalizeExecutable tables)).filter (· ∈ executables)

end Normalization

/-! ## Shell syntax -/

def hasInfix (part text : List Char) : Bool := text.tails.any part.isPrefixOf

/-- A brace, text without a closing brace but with a comma, and a closing brace. -/
def hasBraceExpansion (text : List Char) : Bool :=
  text.tails.any fun
    | '{' :: rest =>
        (rest.takeWhile (· ≠ '}')).contains ',' && (rest.dropWhile (· ≠ '}')).head? == some '}'
    | _ => false

/-- `_SHELL_SYNTAX_PATTERNS`. -/
def hasShellSyntax (token : String) : Bool :=
  let text := token.toList
  text.any (· ∈ ['\r', '\n', ';', '|', '&', '<', '>', '#', '`', '\'', '"']) ||
    hasInfix ['$', '('] text || hasInfix ['$', '{'] text ||
    hasInfix ['<', '('] text || hasInfix ['>', '('] text ||
    hasInfix ['|', '|'] text || hasInfix ['&', '&'] text ||
    hasBraceExpansion text

def firstShellSyntaxToken (argv : List String) : Option String := argv.find? hasShellSyntax

/-! ## Built-in classification -/

structure RuleMatch where
  rule : AuthorityRule
  matchedArgv : Option (List String)

/-- `_match`. -/
def RuleMatch.of (ruleId : String) (effect : CapabilityEffect) (risk : AuthorityRisk)
    (matchedArgv : List String) (description : String) : RuleMatch where
  rule :=
    { ruleId := ruleId
      operation := "shell.run"
      effect := effect
      risk := risk
      conditions := [("argv", .list (matchedArgv.map .str)), ("match", .str "exact")]
      description := description }
  matchedArgv := some matchedArgv

def guardAutoAllow (rawArgv : List String) (selected : RuleMatch) : RuleMatch :=
  if selected.rule.effect = .deny then selected
  else match firstShellSyntaxToken rawArgv with
    | none => selected
    | some token => .of "shell.syntax.default" .ask .high [token]
        "shell metasyntax in argv requires approval"

/-- `_first_in`. -/
def firstIn (values candidates : List String) : Option String :=
  (sortedKeys candidates).find? (· ∈ values)

def isHarmless (argv : List String) : Bool :=
  argv ∈ [["git", "status"], ["git", "status", "--short"], ["git", "branch", "--show-current"],
    ["git", "rev-parse", "--show-toplevel"], ["git", "diff", "--stat"], ["python", "--version"],
    ["python3", "--version"], ["py", "--version"], ["node", "--version"], ["npm", "--version"],
    ["uv", "--version"]]

def isLowRisk (argv : List String) : Bool := argv == ["git", "diff"]

def isMediumRisk (argv : List String) : Bool :=
  argv.head? == some "pytest" || argv.take 2 == ["npm", "test"] || argv.take 2 == ["uv", "run"]

def isHighRiskWorkspaceWrite (argv : List String) : Bool :=
  argv.take 3 ∈ [["python", "-m", "compileall"], ["python3", "-m", "compileall"],
    ["py", "-m", "compileall"]]

/-- `classify_builtin` of a nonempty argv. -/
def classifyBuiltin (tables : TextTables) (argv0 : String) (rest : List String) : RuleMatch :=
  let argv := argv0 :: rest
  let pathQualifiedArgv0 := argv0HasPath argv0
  let normalized := normalizeArgv tables argv
  let direct := normalizeExecutable tables argv0
  let named := direct :: nestedExecutables tables normalized
  match firstIn named destructiveExecutables with
  | some destructive => .of "shell.destructive.default" .deny .destructive [destructive]
      "destructive shell command is denied by default"
  | none =>
  match firstIn named networkExecutables with
  | some network => .of "shell.network.default" .ask .high [network]
      "network-capable shell command requires approval"
  | none =>
  if isMediumRisk normalized then
    guardAutoAllow argv (.of ("shell.medium." ++ direct) .ask .medium (normalized.take 3)
      "project code execution requires approval")
  else if isHighRiskWorkspaceWrite normalized then
    guardAutoAllow argv (.of "shell.high.compileall" .ask .high (normalized.take 3)
      "shell command writes project build artifacts and requires approval")
  else match firstIn named packageExecutables with
  | some package => guardAutoAllow argv (.of "shell.package-manager.default" .ask .high [package]
      "package manager command requires approval")
  | none =>
  match firstIn named scriptExecutables with
  | some script => guardAutoAllow argv (.of "shell.interpreter.default" .ask .high [script]
      "script interpreter command requires approval")
  | none =>
  if pathQualifiedArgv0 = false ∧ isHarmless normalized = true then
    guardAutoAllow argv (.of ("shell.harmless." ++ direct) .allow .harmless normalized
      "harmless read-only inspection command")
  else if pathQualifiedArgv0 = false ∧ isLowRisk normalized = true then
    guardAutoAllow argv (.of ("shell.low." ++ direct) .allow .low (normalized.take 3)
      "low-risk read-only project inspection command")
  else guardAutoAllow argv (.of "shell.unknown.default" .ask .medium [direct]
    "unclassified shell command requires approval")

/-! ## Custom rules -/

/-- `dict.setdefault(key, value)`. -/
def Dict.setdefault (dict : Dict) (key : String) (value : Value) : Dict :=
  if dict.has key then dict else dict ++ [(key, value)]

/-- `dict[key] = value`. -/
def Dict.assign (dict : Dict) (key : String) (value : Value) : Dict :=
  (key, value) :: dict.filter (·.1 ≠ key)

def Dict.pop (dict : Dict) (key : String) : Dict := dict.filter (·.1 ≠ key)

/-- The context that custom rules are matched against. -/
def selectedContext (argv : List String) (context : Dict) : Dict :=
  ((context.setdefault "operation" (.str "shell.run")).setdefault "authority_operation"
    (.str "shell.run")).assign "argv" (.list (argv.map .str))

def missingContextKeys (rule : AuthorityRule) (context : Dict) : List String :=
  sortedKeys (((rule.conditions.map Prod.fst).filterMap fun key =>
    let required := if key ∈ ["timeout_s", "timeout_max_s"] then "timeout_s" else key
    if key ∈ ["argv", "match", "regex_token"] then none
    else if context.has required then none else some required).dedup)

/-- `_rule_argv`. -/
def ruleArgv (rule : AuthorityRule) : Option (List String) := (rule.conditions.get "argv").strings

section Engine
variable (engine : Engine) (limits : RegexLimits) (tables : TextTables)

/-- `_matches_rule`. -/
def matchesRule (context : Dict) (rule : AuthorityRule) : Except Raised Bool :=
  if (rule.conditions.get "argv").isNone then authorityRuleMatches engine limits rule context
  else match (rule.conditions.get "argv").strings, (context.get "argv").strings with
    | some ruleArgv, some actualArgv =>
        let normalizedConditions : Dict :=
          [("argv", .list ((normalizeCustomArgv tables ruleArgv).map .str)),
            ("match", (rule.conditions.lookup "match").getD (.str "exact"))]
        let normalizedContext : Dict :=
          [("argv", .list ((normalizeCustomArgv tables actualArgv).map .str))]
        if argvConditionMatches engine normalizedConditions normalizedContext then
          authorityRuleMatches engine limits
            { rule with conditions := Dict.pop (Dict.pop rule.conditions "argv") "match" } context
        else .ok false
    | _, _ => .ok false

/-- The conditions of the rule are known and well formed. -/
def AcceptedRule (rule : AuthorityRule) : Prop :=
  unknownAuthorityRuleConditions rule = [] ∧
    malformedAuthorityRuleConditions engine limits rule = .ok []

/-- The engine with the custom rules that its constructor admits. -/
structure ShellRuleEngine where
  customRules : List AuthorityRule
  accepted : ∀ rule ∈ customRules, AcceptedRule engine limits rule

/-- The loop of `classify` over the custom rules: those that match, and whether one of them lacks
a part of its context. -/
def matchCustom (context : Dict) : List AuthorityRule → Except Raised (List RuleMatch × Bool)
  | [] => .ok ([], false)
  | rule :: rules =>
      if rule.operation ≠ "shell.run" then matchCustom context rules
      else if missingContextKeys rule context ≠ [] then do
        let (matched, _) ← matchCustom context rules
        .ok (matched, true)
      else do
        let here ← matchesRule engine limits tables context rule
        let (matched, missing) ← matchCustom context rules
        .ok (if here then ⟨rule, ruleArgv rule⟩ :: matched else matched, missing)

def missingContextMatch (argv0 : String) : RuleMatch :=
  .of "shell.custom.context-required" .deny .high [normalizeExecutable tables argv0]
    "custom shell rule denied because complete operation context is unavailable"

/-- The strictest effect that some match has, with the first such match. -/
def strictest (matched : List RuleMatch) : Option RuleMatch :=
  [CapabilityEffect.deny, .ask, .allow].findSome? fun effect =>
    matched.find? (·.rule.effect = effect)

/-- What `classify` makes of the built-in verdict and the custom rules. -/
def decideCustom (argv0 : String) (rest : List String) (builtin : RuleMatch)
    (matched : List RuleMatch) (missingContext : Bool) : RuleMatch :=
  match strictest matched with
  | some selected =>
      if selected.rule.effect = .deny then selected
      else if builtin.rule.effect = .ask ∧ builtin.rule.ruleId ≠ "shell.unknown.default" then
        builtin
      else if missingContext then missingContextMatch tables argv0
      else guardAutoAllow (argv0 :: rest) selected
  | none => if missingContext then missingContextMatch tables argv0 else builtin

/-- A `ValidationError` for an empty argv, or what an evaluation raises. -/
inductive ShellFault
  | emptyArgv
  | raised (escaped : Raised)

/-- `classify`. -/
def ShellRuleEngine.classify (rules : ShellRuleEngine engine limits) (context : Dict) :
    List String → Except ShellFault RuleMatch
  | [] => .error .emptyArgv
  | argv0 :: rest =>
      let builtin := classifyBuiltin tables argv0 rest
      if builtin.rule.effect = .deny then .ok builtin
      else match matchCustom engine limits tables (selectedContext (argv0 :: rest) context)
          rules.customRules with
        | .error escaped => .error (.raised escaped)
        | .ok (matched, missingContext) =>
            .ok (decideCustom tables argv0 rest builtin matched missingContext)

end Engine

end AgentLibOS.Capability
