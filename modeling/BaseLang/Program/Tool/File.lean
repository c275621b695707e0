import BaseLang.Program.Escape
import BaseLang.Program.Options
import BaseLang.Program.Pattern
import BaseLang.Program.Quotation
import BaseLang.Text.Decimal
import BaseLang.Text.Split

/-!
# Programs that look after files

* `Call.read` : what an operand names, as a text of octets;
* `Tool.cat`, `cp`, `mv`, `rm`, `mkdir`, `rmdir`, `touch`, `ls`, `chmod`, `tee` : the programs.
-/

namespace BaseLang

/-- What an operand names: the standard input, or a file. -/
def Call.read (c : Call) (operand : String) (fs : FileSystem) : Except OsError String :=
  if operand = "-" || operand = "/dev/stdin" then .ok (Text.ofBytes c.input)
  else (fs.read (.ofOctets operand)).map Text.ofBytes

def Outcome.reading (o : Outcome) (operands : List String) : Outcome :=
  if operands.any fun x => x = "-" || x = "/dev/stdin" then o.drain else o

namespace Tool

def lastName (path : String) : String :=
  let cs := path.toList.reverse.dropWhile (· = '/')
  String.ofList (cs.takeWhile (· ≠ '/')).reverse

def below (dir name : String) : String :=
  if dir.endsWith "/" then dir ++ name else dir ++ "/" ++ name

/-- What a program has to do before it copies or moves: to which directory, or from where to where. -/
inductive Destination where
  | into (dir : String) (sources : List String)
  | onto (source destination : String)
  | wrong (o : Outcome)

/-- Where the operands of a program that copies or moves say that it has to go. -/
def destination (c : Call) (o : Options) (fs : FileSystem) : Destination :=
  match o.value? 't', o.operands with
  | some dir, sources =>
    if sources = [] then .wrong (c.misuse 1 "missing file operand") else .into dir sources
  | none, [] => .wrong (c.misuse 1 "missing file operand")
  | none, [source] => .wrong (c.misuse 1 s!"missing destination file operand after {quoteName source}")
  | none, [source, dir] =>
    if fs.isDir (.ofOctets dir) && !o.has 'T' then .into dir [source] else .onto source dir
  | none, first :: operands =>
    let dir := operands.getLast?.getD ""
    match fs.stat (.ofOctets dir) with
    | .ok (.dir _) => .into dir (first :: operands.dropLast)
    | .ok _ => .wrong (c.fail 1 s!"target {quoteName dir}: {OsError.notDirectory.description}")
    | .error e => .wrong (c.fail 1 s!"target {quoteName dir}: {e.description}")

/-- Goes from every source to its destination. -/
def travel (c : Call) (o : Options) (fs : FileSystem)
    (go : String → String → FileSystem → Outcome × FileSystem) : Outcome × FileSystem :=
  match destination c o fs with
  | .wrong o => (o, fs)
  | .onto source dest => go source dest fs
  | .into dir sources => forEach sources (fun source => go source (below dir (lastName source))) fs

/-- Says where something goes, if this is asked for. -/
def said (o : Options) (line : String) : Outcome := if o.has 'v' then .print (line ++ "\n") else .silent 0

/-! ## Copying and moving -/

def copyTree (c : Call) (o : Options) :
    (fuel : Nat) → String → String → FileSystem → Outcome × FileSystem
  | 0, _, _, fs => (.silent 1, fs)
  | fuel + 1, source, dest, fs =>
    let deep := "rRa".toList.any o.has
    let failed (text : String) := (c.fail 1 text, fs)
    let arrow := s!"{quoteName source} -> {quoteName dest}"
    let kept (time : Time) (fs : FileSystem) :=
      if "pa".toList.any o.has then ((fs.setTime (.ofOctets dest) time).toOption.getD fs) else fs
    match fs.locate (.ofOctets source), fs.stat (.ofOctets source) with
    | _, .error e | .error e, _ => failed s!"cannot stat {quoteName source}: {e.description}"
    | .ok loc, .ok (.dir time) =>
      if !deep then failed s!"-r not specified; omitting directory {quoteName source}"
      else match fs.locateBare (.ofOctets dest) with
        | .error e => failed s!"cannot create directory {quoteName dest}: {e.description}"
        | .ok loc' =>
          if loc.isSuffixOf loc' then
            failed s!"cannot copy a directory, {quoteName source}, into itself, {quoteName dest}"
          else
            let made : Except String FileSystem := match fs.node? loc' with
              | some (.dir _) => .ok fs
              | some _ =>
                .error s!"cannot overwrite non-directory {quoteName dest} with directory {quoteName source}"
              | none => .ok (fs.add loc' (.dir fs.clock))
            match made with
            | .error text => failed text
            | .ok fs =>
              let (inner, fs) := forEach (Pattern.names fs source)
                (fun name => copyTree c o fuel (below source name) (below dest name)) fs
              (said o arrow ++ inner, kept time fs)
    | .ok loc, .ok (.file contents time executable) =>
      match fs.locateBare (.ofOctets dest) with
      | .error e =>
        failed (if e = .notDirectory then s!"cannot stat {quoteName dest}: {e.description}"
          else s!"cannot create regular file {quoteName dest}: {e.description}")
      | .ok loc' =>
        match fs.node? loc' with
        | some (.dir _) => failed s!"cannot overwrite directory {quoteName dest} with non-directory"
        | found =>
          if found.isSome && o.has 'n' then (.silent 0, fs)
          else if loc = loc' then failed s!"{quoteName source} and {quoteName dest} are the same file"
          else if dest.endsWith "/" then
            failed s!"cannot create regular file {quoteName dest}: {OsError.notDirectory.description}"
          else (said o arrow, kept time (fs.store loc' contents executable))

def cp : Tool :=
  withOptions ⟨"rRafpnvTidLPHxbu", "t", [("recursive", 'r'), ("archive", 'a'), ("force", 'f'),
    ("no-clobber", 'n'), ("verbose", 'v'), ("target-directory", 't'), ("no-target-directory", 'T')]⟩ 1
    fun c o fs => travel c o fs (copyTree c o (fs.nodes.entries.length + 1))

def moveFile (c : Call) (o : Options) (source dest : String) (fs : FileSystem) : Outcome × FileSystem :=
  let failed (text : String) := (c.fail 1 text, fs)
  let failedMove (e : OsError) := failed s!"cannot move {quoteName source} to {quoteName dest}: {e.description}"
  match fs.locate (.ofOctets source), fs.stat (.ofOctets source) with
  | _, .error e | .error e, _ => failed s!"cannot stat {quoteName source}: {e.description}"
  | .ok loc, .ok node =>
    match fs.locateBare (.ofOctets dest) with
    | .error e => failedMove e
    | .ok loc' =>
      let found := fs.node? loc'
      if found.isSome && o.has 'n' then (.silent 0, fs)
      else if loc.isSuffixOf loc' && (node.isDir || loc = loc') then
        failed (if loc = loc' then s!"{quoteName source} and {quoteName dest} are the same file"
          else s!"cannot move {quoteName source} to a subdirectory of itself, {quoteName dest}")
      else match node.isDir, found with
        | false, some (.dir _) => failed s!"cannot overwrite directory {quoteName dest} with non-directory"
        | true, some (.file ..) =>
          failed s!"cannot overwrite non-directory {quoteName dest} with directory {quoteName source}"
        | isDir, _ =>
          if !isDir && dest.endsWith "/" then failedMove .notDirectory
          else match fs.renameAt loc loc' with
            | .ok fs => (said o s!"renamed {quoteName source} -> {quoteName dest}", fs)
            | .error .notEmpty =>
              failed s!"cannot overwrite {quoteName dest}: {OsError.notEmpty.description}"
            | .error e => failedMove e

def mv : Tool :=
  withOptions ⟨"fnvTiub", "t", [("force", 'f'), ("no-clobber", 'n'), ("verbose", 'v'),
    ("target-directory", 't'), ("no-target-directory", 'T')]⟩ 1
    fun c o fs => travel c o fs (moveFile c o)

/-! ## Removing and making -/

/-- Removes a file, or a directory that is empty. -/
def unlink (fs : FileSystem) (loc : Location) : FileSystem := (fs.prune loc).touchParent loc

def removedLines (fs : FileSystem) : (fuel : Nat) → String → List String
  | 0, _ => []
  | fuel + 1, path =>
    if fs.isDir (.ofOctets path) then
      (Pattern.names fs path).flatMap (fun name => removedLines fs fuel (below path name))
        ++ [s!"removed directory {quoteName path}"]
    else [s!"removed {quoteName path}"]

def removeFile (c : Call) (o : Options) (path : String) (fs : FileSystem) : Outcome × FileSystem :=
  let deep := "rR".toList.any o.has
  let failed (e : OsError) := (c.fail 1 s!"cannot remove {quoteName path}: {e.description}", fs)
  let removed (loc : Location) :=
    (if o.has 'v' then
      .print (String.join ((removedLines fs (fs.nodes.entries.length + 1) path).map (· ++ "\n")))
    else .silent 0, unlink fs loc)
  match fs.locate (.ofOctets path), fs.stat (.ofOctets path) with
  | _, .error e | .error e, _ =>
    if o.has 'f' && (e = .notFound || e = .notDirectory) then (.silent 0, fs) else failed e
  | .ok loc, .ok (.dir _) =>
    if deep && (lastName path = "." || lastName path = "..") then
      (c.fail 1 s!"refusing to remove '.' or '..' directory: skipping {quoteName path}", fs)
    else if deep && loc = [] then
      (c.fail 1 s!"it is dangerous to operate recursively on {quoteName path}"
        ++ c.fail 1 "use --no-preserve-root to override this failsafe", fs)
    else if deep then removed loc
    else if o.has 'd' then if fs.hasChildren loc then failed .notEmpty else removed loc
    else failed .isDirectory
  | .ok loc, .ok _ => removed loc

def rm : Tool :=
  withOptions ⟨"rRfdviI", "", [("recursive", 'r'), ("force", 'f'), ("dir", 'd'), ("verbose", 'v')]⟩ 1
    fun c o fs =>
      if o.operands = [] then (if o.has 'f' then .silent 0 else c.misuse 1 "missing operand", fs)
      else forEach o.operands (removeFile c o) fs

def makeParents (c : Call) (o : Options) (path : String) (fs : FileSystem) : Outcome × FileSystem :=
  let p := Path.ofOctets path
  let failed (at_ : String) (e : OsError) :=
    (c.fail 1 s!"cannot create directory {quoteName at_}: {e.description}", fs)
  if path = "" then failed path .notFound
  else
    let chain := p.ancestors.reverse.filter (·.text ≠ "")
    let step (state : Except (String × OsError) (Outcome × FileSystem)) (q : Path) :=
      match state with
      | .error e => .error e
      | .ok (done, fs) =>
        let name := if q = p then path else Text.octets q.text
        match fs.stat q with
        | .ok (.dir _) => .ok (done, fs)
        | .ok _ => .error (name, if q = p then .alreadyExists else .notDirectory)
        | .error _ =>
          match fs.makeDir q with
          | .ok fs => .ok (done ++ said o s!"{c.name}: created directory {quoteName name}", fs)
          | .error e => .error (name, e)
    match chain.foldl step (.ok (.silent 0, fs)) with
    | .ok done => done
    | .error (name, e) => failed name e

def mkdir : Tool :=
  withOptions ⟨"pvZ", "m", [("parents", 'p'), ("verbose", 'v'), ("mode", 'm')]⟩ 1 fun c o fs =>
    if o.operands = [] then (c.misuse 1 "missing operand", fs)
    else forEach o.operands (fun path fs =>
      if o.has 'p' then makeParents c o path fs
      else match fs.makeDir (.ofOctets path) with
        | .ok fs => (said o s!"{c.name}: created directory {quoteName path}", fs)
        | .error e => (c.fail 1 s!"cannot create directory {quoteName path}: {e.description}", fs)) fs

def removeDir (fs : FileSystem) (path : String) : Except OsError FileSystem :=
  match fs.locate (.ofOctets path), fs.stat (.ofOctets path) with
  | _, .error e | .error e, _ => .error e
  | .ok loc, .ok (.dir _) =>
    if lastName path = "." then .error .invalid
    else if fs.hasChildren loc then .error .notEmpty
    else if loc = [] then .error .busy
    else .ok (unlink fs loc)
  | .ok _, .ok _ => .error .notDirectory

def rmdir : Tool :=
  withOptions ⟨"pv", "", [("parents", 'p'), ("verbose", 'v')]⟩ 1 fun c o fs =>
    if o.operands = [] then (c.misuse 1 "missing operand", fs)
    else forEach o.operands (fun path fs =>
      let chain := if o.has 'p' then
          path :: ((Path.ofOctets path).ancestors.tail.filter fun q => q.text ≠ "" && q.text ≠ "/").map
            fun q => Text.octets q.text
        else [path]
      let step (state : Bool × Outcome × FileSystem) (path : String) : Bool × Outcome × FileSystem :=
        let (going, done, fs) := state
        if !going then state
        else
          let line := said o s!"{c.name}: removing directory, {quoteName path}"
          match removeDir fs path with
          | .ok fs => (true, done ++ line, fs)
          | .error e =>
            (false, done ++ line ++ c.fail 1 s!"failed to remove {quoteName path}: {e.description}", fs)
      (chain.foldl step (true, .silent 0, fs)).2) fs

def dayNumber (year month day : Int) : Int :=
  let y := if month ≤ 2 then year - 1 else year
  let era := y.fdiv 400
  let yoe := y - era * 400
  let doy := (153 * (month + (if month > 2 then -3 else 9)) + 2) / 5 + day - 1
  let doe := yoe * 365 + yoe / 4 - yoe / 100 + doy
  era * 146097 + doe - 719468

def timeOf (year month day hour minute second : Int) : Time :=
  (((dayNumber year month day * 24 + hour) * 60 + minute) * 60 + second) * 1000000000

def numbersIn (cs : List Char) : List Int :=
  let parts := (cs.map fun c => if c.isDigit then c else ' ')
  ((Text.fields ' ' parts).filter (· ≠ [])).map fun ds => Int.ofNat (Nat.ofDigitChars 10 ds 0)

def dateTime? (text : String) : Option Time :=
  match text.toList with
  | '@' :: cs => (Text.readDecimal? cs).map (· * 1000000000)
  | cs =>
    match numbersIn cs with
    | [y, m, d] => some (timeOf y m d 0 0 0)
    | [y, m, d, h, min] => some (timeOf y m d h min 0)
    | [y, m, d, h, min, s] => some (timeOf y m d h min s)
    | _ => none

/-- The time that digits spell: a year of four digits, and two digits for each of the month, the day, the
hour and the minute, and for the second behind a dot. -/
def stampTime? (text : String) : Option Time :=
  let cs := text.toList.takeWhile (· ≠ '.')
  let seconds := (numbersIn (text.toList.drop cs.length)).headD 0
  let two (n : Nat) : Int := Nat.ofDigitChars 10 ((cs.drop n).take 2) 0
  if cs.length = 12 && cs.all Char.isDigit then
    some (timeOf (two 0 * 100 + two 2) (two 4) (two 6) (two 8) (two 10) seconds)
  else none

/-- Gives files the present time or another one, and makes those that are missing. -/
def touch : Tool :=
  withOptions ⟨"cmaf", "trd", [("no-create", 'c'), ("date", 'd'), ("reference", 'r')]⟩ 1 fun c o fs =>
    let time? : Except String Time :=
      match o.value? 'd', o.value? 't', o.value? 'r' with
      | some text, _, _ =>
        match dateTime? text with
        | some t => .ok t
        | none => .error s!"invalid date format {quoteName text}"
      | none, some text, _ =>
        match stampTime? text with
        | some t => .ok t
        | none => .error s!"invalid date format {quoteName text}"
      | none, none, some path =>
        match fs.stat (.ofOctets path) with
        | .ok node => .ok node.modified
        | .error e => .error s!"failed to get attributes of {quoteName path}: {e.description}"
      | none, none, none => .ok fs.clock
    match time? with
    | .error text => (c.fail 1 text, fs)
    | .ok time =>
      if o.operands = [] then (c.misuse 1 "missing file operand", fs)
      else forEach o.operands (fun path fs =>
        let p := Path.ofOctets path
        let failed (text : String) (e : OsError) := (c.fail 1 s!"{text} {quoteName path}: {e.description}", fs)
        match fs.setTime p time with
        | .ok fs => (.silent 0, fs)
        | .error .notFound =>
          if o.has 'c' then (.silent 0, fs)
          else match fs.target p with
            | .ok loc =>
              let fs := fs.store loc .empty false
              (.silent 0, (fs.setTime p time).toOption.getD fs)
            | .error .isDirectory => failed "setting times of" .notFound
            | .error e => failed "cannot touch" e
        | .error e => if path.endsWith "/" then failed "setting times of" e else failed "cannot touch" e) fs

/-! ## Listing -/

/-- A name as it is listed, with a mark if this is asked for. -/
def listedName (o : Options) (fs : FileSystem) (path name : String) : String :=
  match fs.stat (.ofOctets path) with
  | .ok (.dir _) => if o.has 'F' || o.has 'p' then name ++ "/" else name
  | .ok (.file _ _ true) => if o.has 'F' then name ++ "*" else name
  | _ => name

def ordered (o : Options) (fs : FileSystem) (path : String → String) (names : List String) : List String :=
  let time (name : String) : Time := ((fs.stat (.ofOctets (path name))).toOption.map Node.modified).getD 0
  let size (name : String) : Nat :=
    match fs.stat (.ofOctets (path name)) with
    | .ok (.file contents ..) => contents.size
    | _ => 4096
  let names := names.mergeSort fun a b => decide (a ≤ b)
  let names := match o.last? "tSU" with
    | some 't' => names.mergeSort fun a b => decide (time b ≤ time a)
    | some 'S' => names.mergeSort fun a b => decide (size b ≤ size a)
    | _ => names
  if o.has 'r' then names.reverse else names

/-- What is in a directory, line by line. -/
def listDir (o : Options) (fs : FileSystem) (dir : String) : List String :=
  let all := Pattern.names fs dir
  let shown := if o.has 'a' then "." :: ".." :: all
    else if o.has 'A' then all
    else all.filter fun name => name.toList.head? ≠ some '.'
  (ordered o fs (below dir) shown).map fun name => listedName o fs (below dir name) name

/-- The directories below one, in the order in which they are listed. -/
def deepDirs (o : Options) (fs : FileSystem) : (fuel : Nat) → String → List String
  | 0, _ => []
  | fuel + 1, dir =>
    let shown := (Pattern.names fs dir).filter fun name =>
      (o.has 'a' || o.has 'A' || name.toList.head? ≠ some '.') && fs.isDir (.ofOctets (below dir name))
    dir :: (ordered o fs (below dir) shown).flatMap fun name => deepDirs o fs fuel (below dir name)

def ls : Tool :=
  withOptions ⟨"aA1dFprRtSUClhinsx", "w", [("all", 'a'), ("almost-all", 'A'), ("directory", 'd'),
    ("recursive", 'R'), ("reverse", 'r')]⟩ 2 fun c o fs =>
    let operands := if o.operands = [] then ["."] else o.operands
    let missing := operands.filterMap fun path =>
      match fs.stat (.ofOctets path) with
      | .ok _ => none
      | .error e => some (c.fail 2 s!"cannot access {quoteName path}: {e.description}")
    let known := operands.filter fun path => fs.holds (.ofOctets path)
    let isListed (path : String) : Bool := fs.isDir (.ofOctets path) && !o.has 'd'
    let single := (ordered o fs id (known.filter (!isListed ·))).map fun path => listedName o fs path path
    let dirs := ordered o fs id (known.filter isListed)
    let dirs := if o.has 'R' then dirs.flatMap (deepDirs o fs (fs.nodes.entries.length + 1)) else dirs
    let titled := o.has 'R' || 1 < operands.length
    let blocks := dirs.map fun dir => (if titled then [dir ++ ":"] else []) ++ listDir o fs dir
    let blocks := if single = [] then blocks else single :: blocks
    let lines := List.intercalate [""] blocks
    let done := missing.foldl (· ++ ·) (.silent 0)
    ((done ++ .print (String.join (lines.map (· ++ "\n")))).withStatus (if missing.isEmpty then 0 else 2), fs)

/-! ## Contents -/

def numbered (blank : Bool) (first : Nat) : List (List Char) → List (List Char)
  | [] => []
  | line :: lines =>
    if line = ['\n'] && !blank then line :: numbered blank first lines
    else
      let ds := Nat.toDigits 10 first
      (List.replicate (6 - ds.length) ' ' ++ ds ++ '\t' :: line) :: numbered blank (first + 1) lines

def linesOf (cs : List Char) : List (List Char) :=
  cs.foldr (fun c lines =>
    if c = '\n' then [c] :: lines
    else match lines with
      | [] => [[c]]
      | line :: rest => (c :: line) :: rest) []

def cat : Tool :=
  withOptions ⟨"nbuvETAest", "", [("number", 'n'), ("number-nonblank", 'b')]⟩ 1 fun c o fs =>
    let operands := if o.operands = [] then ["-"] else o.operands
    let marked (text : String) : String :=
      if o.has 'n' || o.has 'b' then String.ofList (numbered (!o.has 'b') 1 (linesOf text.toList)).flatten
      else text
    let (done, fs) := forEach operands (fun path fs =>
      match c.read path fs with
      | .ok text => (.print (marked text), fs)
      | .error e => (c.fail 1 s!"{quoteIfNeeded path}: {e.description}", fs)) fs
    (done.reading operands, fs)

/-- Writes the input to files and to the output. -/
def tee : Tool :=
  withOptions ⟨"aip", "", [("append", 'a')]⟩ 1 fun c o fs =>
    let (done, fs) := forEach o.operands (fun path fs =>
      let p := Path.ofOctets path
      if path = "/dev/stderr" then (⟨.code 0, [(.errors, c.input)], false⟩, fs)
      else if path = "/dev/stdout" || path = "-" then (.printed c.input, fs)
      else if path = "/dev/null" then (.silent 0, fs)
      else
        let before := if o.has 'a' then (fs.read p).toOption.getD .empty else .empty
        match fs.write p (before ++ c.input) with
        | .ok fs => (.silent 0, fs)
        | .error e => (c.fail 1 s!"{quoteIfNeeded path}: {e.description}", fs)) fs
    ((done ++ (Outcome.printed c.input).drain).withStatus done.exit.status, fs)

/-! ## Modes -/

/-- Whether a file can be run after a change of its mode, if the mode is one. -/
def changedMode? (mode : String) (isDir before : Bool) : Option Bool :=
  let cs := mode.toList
  if cs ≠ [] && cs.all fun c => '0' ≤ c && c ≤ '7' then
    let n := EscapeStyle.value 8 (cs.filterMap EscapeStyle.digit?)
    if 4096 ≤ n then none else some (n % 2 = 1 || n / 8 % 2 = 1 || n / 64 % 2 = 1)
  else (Text.fields ',' cs).foldl (fun state clause => state.bind (change clause)) (some before)
where
  /-- The mode after one clause. -/
  change (clause : List Char) (before : Bool) : Option Bool :=
    let who := clause.takeWhile ("ugoa".toList.contains ·)
    match clause.drop who.length with
    | op :: perms =>
      if "+-=".toList.contains op && perms.all ("rwxXst".toList.contains ·) then
        let named := perms.contains 'x' || (perms.contains 'X' && (isDir || before))
        some (match op with
          | '+' => before || named
          | '-' => before && !(named && (who = [] || who.contains 'a' || who.contains 'u'))
          | _ => named || (before && who ≠ [] && !who.contains 'a' && !who.contains 'u'))
      else none
    | [] => none

def chmod : Tool := fun c fs =>
  let deep := c.args.any fun arg => ["-R", "-Rf", "--recursive"].contains arg
  let options := ["-R", "-Rf", "--recursive", "-f", "-v", "-c", "--"]
  let args := c.args.filter fun arg => !options.contains arg
  match args with
  | [] => (c.misuse 1 "missing operand", fs)
  | [mode] => (c.misuse 1 s!"missing operand after {quoteName mode}", fs)
  | mode :: operands =>
    if (changedMode? mode false false).isNone then (c.misuse 1 s!"invalid mode: {quoteName mode}", fs)
    else forEach operands (fun path fs =>
      match fs.locate (.ofOctets path), fs.stat (.ofOctets path) with
      | _, .error e | .error e, _ => (c.fail 1 s!"cannot access {quoteName path}: {e.description}", fs)
      | .ok loc, .ok _ =>
        let targets := if deep then fs.nodes.keys.filter loc.isSuffixOf else [loc]
        (.silent 0, targets.foldl (fun fs loc =>
          match fs.node? loc with
          | some (.file contents time before) =>
            fs.put loc (.file contents time ((changedMode? mode false before).getD before))
          | _ => fs) fs)) fs

end Tool

end BaseLang
