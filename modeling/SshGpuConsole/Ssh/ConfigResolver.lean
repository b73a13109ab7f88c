import SshGpuConsole.Lib.Dict
import SshGpuConsole.Lib.Fnmatch
import SshGpuConsole.Lib.PySeparators
import SshGpuConsole.Ssh.HostKeys

/-!
# The SSH config

`SSHConfigResolver` (`ssh/config_resolver.py`) over the blocks it has loaded: which blocks an alias matches, the entry
that they give it, the chain of jumps in front of a host, and the parameters of its connection. What `str.casefold`,
`str.isdigit`, `int` and the functions of `os.path` answer is a parameter. The chain of jumps recurses along what the
entries say, so it is given the number of calls that the stack has room for.
-/

namespace SshGpuConsole.Ssh.Config
open Shell (Text)
open PyText

/-- What the resolver asks of Python: about texts, and about the paths of this machine. -/
structure Python where
  casefold : Text → Text
  isdigit : Text → Bool
  /-- `int`, or the text of its `ValueError` -/
  int : Text → Except Text ℤ
  repr : Text → Text
  /-- `str(Path.home())` -/
  home : Text
  /-- `os.path.expandvars(os.path.expanduser(..))` as a `Path` -/
  expandPath : Text → Text
  isFile : Text → Bool
  isdigit_decimal (n : ℕ) : isdigit (Nat.toDigits 10 n) = true
  int_decimal (n : ℕ) : int (Nat.toDigits 10 n) = .ok n

/-- A `Host` block: its patterns, and the values of each directive. -/
structure Block where
  patterns : List Text
  values : Dict Text (List Text)
  deriving DecidableEq

/-- The truth of an optional text: `text or None`. -/
def orNone (t : Option Text) : Option Text := t.filter (· ≠ [])

/-- `_expand` -/
def expand (value host_alias : Text) : Text := strip (replace "%n".toList host_alias (replace "%h".toList host_alias value))

section
variable (py : Python)

/-- `_expand_path` -/
def expandPath (value host_alias : Text) : Text := py.expandPath (replace "%d".toList py.home (expand value host_alias))

/-- The loop of `_matches`: a negated pattern ends it, any other is remembered. -/
def matchesFrom (subject : Text) : Bool → List Text → Bool
  | positive, [] => positive
  | positive, pattern :: patterns =>
    let negated := pattern.head? = some '!'
    let expression := py.casefold (if negated then pattern.drop 1 else pattern)
    if Fnmatch.fnmatchcase subject expression then
      if negated then false else matchesFrom subject true patterns
    else matchesFrom subject positive patterns

/-- `_matches` -/
def Block.Matches (block : Block) (host_alias : Text) : Bool := matchesFrom py (py.casefold host_alias) false block.patterns

/-- `matches` -/
def configMatches (blocks : List Block) (host_alias : Text) : Bool := blocks.any fun block => block.Matches py host_alias

/-- The first value of a directive. -/
def Block.first (block : Block) (key : String) : Option Text := (block.values.get key.toList).bind List.head?

/-- The port of a block, when it is one. -/
def Block.port (block : Block) : Option ℤ :=
  ((block.first "port").bind fun value => (py.int value).toOption).filter fun candidate => 1 ≤ candidate ∧ candidate ≤ 65535

/-- What a block that matches adds to the entry: what is there stays. -/
def merge (host_alias : Text) (entry : SSHConfigEntry) (block : Block) : SSHConfigEntry :=
  { entry with
    hostname := entry.hostname <|> (block.first "hostname").map fun value => expand value host_alias
    user := entry.user <|> (block.first "user").map fun value => expand value host_alias
    port := entry.port <|> block.port py
    proxy_jump := entry.proxy_jump <|> (block.first "proxyjump").map fun value => expand value host_alias
    identity_files := ((block.values.get "identityfile".toList).getD []).foldl (fun files raw =>
      let identity := expandPath py raw host_alias
      if files.contains identity then files else files ++ [identity]) entry.identity_files }

/-- `resolve` -/
def resolve (blocks : List Block) (host_alias : Text) : SSHConfigEntry :=
  (blocks.filter fun block => block.Matches py host_alias).foldl (merge py host_alias) {}

/-- `list_aliases_ordered` -/
def listAliasesOrdered (blocks : List Block) : List Text :=
  (blocks.flatMap Block.patterns).foldl (fun aliases pattern =>
    if pattern.any (fun c => c = '*' || c = '?' || c = '!') || aliases.contains pattern then aliases
    else aliases ++ [pattern]) []

/-- `sorted(.., key=str.casefold)` -/
def listAliases (blocks : List Block) : List Text :=
  (listAliasesOrdered blocks).mergeSort fun a b => decide (py.casefold a ≤ py.casefold b)

/-! ### Jumps -/

/-- The user in front of a hop, and the rest of it. -/
def splitUser (token : Text) : Option Text × Text :=
  match rpartition '@' token with
  | some (before, after) => (orNone (some before), after)
  | none => (none, token)

/-- The host and the port of a hop without its user. -/
def splitAddress (rest : Text) : Except Text (Text × Option ℤ) :=
  if rest.head? = some '[' then
    match rest.dropWhile (· ≠ ']') with
    | [] => .ok (rest, none)
    | _ :: tail =>
      let host := (rest.drop 1).takeWhile (· ≠ ']')
      match tail with
      | ':' :: digits => if py.isdigit digits then (py.int digits).map fun port => (host, some port) else .ok (host, none)
      | _ => .ok (host, none)
  else
    match rpartition ':' rest with
    | some (candidate, port_str) =>
      if candidate ≠ [] ∧ py.isdigit port_str = true then (py.int port_str).map fun port => (candidate, some port)
      else .ok (rest, none)
    | none => .ok (rest, none)

/-- `_split_hop`, or the text of the `ValueError` that `int` raises in it. -/
def splitHop (token : Text) : Except Text (Option Text × Text × Option ℤ) :=
  let (user, rest) := splitUser token
  (splitAddress py rest).map fun address => (user, address.1, address.2)

/-- Why a chain of jumps has no result: the text of a `ValueError`, or the stack has no room for another call. -/
inductive JumpError where
  | valueError (message : Text)
  | recursionError
  deriving DecidableEq

/-- A user in front of a hop. -/
def userText (user : Option Text) : Text :=
  match orNone user with
  | some user => user ++ ['@']
  | none => []

/-- The text of a hop. -/
def hopText (user : Option Text) (host : Text) (port : ℤ) : Text :=
  userText user ++
  if host.contains ':' && port ≠ 22 then '[' :: host ++ ']' :: ':' :: ofInt port
  else host ++ if port ≠ 22 then ':' :: ofInt port else []

/-- What the entries say of a hop: its text, the jump in front of it, and the hosts that this must not come back to. -/
structure Hop where
  text : Text
  proxy_jump : Option Text
  seen : List Text
  deriving DecidableEq

/-- A hop of a chain, with the entry of its host. -/
def resolveHop (blocks : List Block) (seen : List Text) (token : Text) : Except JumpError Hop :=
  match splitHop py token with
  | .error message => .error (.valueError message)
  | .ok (user, host, port) =>
    let entry := resolve py blocks host
    let effective_host := orText entry.hostname host
    let effective_user := user <|> entry.user
    let effective_port := port.getD (orInt entry.port 22)
    if seen.contains (py.casefold effective_host) then
      .error (.valueError ("proxy jump cycle detected at ".toList ++ py.repr effective_host))
    else .ok {
      text := hopText effective_user effective_host effective_port
      proxy_jump := orNone entry.proxy_jump
      seen := py.casefold effective_host :: seen }

/-- The token is skipped: it is empty or `none`. -/
def isSkipped (token : Text) : Bool := token = [] || py.casefold token = "none".toList

/-- A hop, and the hops of the jump in front of it, given what a call for that jump returns. -/
def resolveToken (blocks : List Block) (inner : List Text → Text → Except JumpError Text) (seen : List Text)
    (token : Text) : Except JumpError (List Text × Text) :=
  match resolveHop py blocks seen token with
  | .error error => .error error
  | .ok hop =>
    match hop.proxy_jump with
    | none => .ok ([], hop.text)
    | some proxy_jump => (inner hop.seen proxy_jump).map fun inner_resolved =>
      (if inner_resolved = [] then [] else inner_resolved.splitOn ',', hop.text)

/-- The loop of `resolve_proxy_jump`. -/
def resolveHops (blocks : List Block) (inner : List Text → Text → Except JumpError Text) (seen : List Text) :
    List Text → List Text → Except JumpError (List Text)
  | hops, [] => .ok hops
  | hops, raw :: raws =>
    if isSkipped py (strip raw) then resolveHops blocks inner seen hops raws
    else
      match resolveToken py blocks inner seen (strip raw) with
      | .error error => .error error
      | .ok (inner_hops, hop) => resolveHops blocks inner seen (inner_hops ++ hops ++ [hop]) raws

/-- `resolve_proxy_jump`, with room for so many calls. -/
def resolveProxyJump (blocks : List Block) : ℕ → List Text → Text → Except JumpError Text
  | 0, _, _ => .error .recursionError
  | n + 1, seen, spec =>
    (resolveHops py blocks (resolveProxyJump blocks n) seen [] (spec.splitOn ',')).map fun hops => [','].intercalate hops

/-! ### Connections -/

/-- Why a host has no parameters: a `ConnectError`, or an error that nobody expects. -/
inductive ParamsError where
  | connectError (error : ConnectError)
  | recursionError
  deriving DecidableEq

/-- What `resolve_connect_params` asks, when the jumps of the host do not exhaust the stack. -/
def resolver (blocks : List Block) (n : ℕ) : Resolver where
  resolve := resolve py blocks
  isFile := py.isFile
  resolveProxyJump spec := match resolveProxyJump py blocks n [] spec with
    | .ok chain => .ok chain
    | .error (.valueError message) => .error message
    | .error .recursionError => .error []

/-- `resolve_connect_params`, with room for so many calls. -/
def connectParams (blocks : List Block) (n : ℕ) (server_host : Text) (username : Option Text) (port : Option ℤ) :
    Except ParamsError ConnectParams :=
  if (resolve py blocks server_host).proxy_jump.any fun spec =>
      resolveProxyJump py blocks n [] spec = .error .recursionError then .error .recursionError
  else (resolveConnectParams (resolver py blocks n) server_host username port).mapError .connectError

end

/-- Python on ASCII texts, for a user at home. -/
def asciiPython : Python where
  casefold t := t.map Char.toLower
  isdigit t := t ≠ [] && t.all Char.isDigit
  int t :=
    if t ≠ [] && t.all Char.isDigit then .ok (Nat.ofDigitChars 10 t 0 : ℕ)
    else .error ("invalid literal for int() with base 10: '".toList ++ t ++ ['\''])
  repr t := '\'' :: t ++ ['\'']
  home := "/home/user".toList
  expandPath t := t
  isFile _ := true
  isdigit_decimal n := by
    rw [Bool.and_eq_true, decide_eq_true_iff, List.all_eq_true]
    exact ⟨Nat.toDigits_ne_nil, fun c hc => Nat.isDigit_of_mem_toDigits (by decide) (by decide) hc⟩
  int_decimal n := by
    have hdigits : (Nat.toDigits 10 n ≠ [] && (Nat.toDigits 10 n).all Char.isDigit) = true := by
      rw [Bool.and_eq_true, decide_eq_true_iff, List.all_eq_true]
      exact ⟨Nat.toDigits_ne_nil, fun c hc => Nat.isDigit_of_mem_toDigits (by decide) (by decide) hc⟩
    rw [if_pos hdigits, Nat.ofDigitChars_ten_toDigits]

end SshGpuConsole.Ssh.Config
