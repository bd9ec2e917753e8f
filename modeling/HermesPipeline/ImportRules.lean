/-
The architecture check of a package tree.  An import statement becomes edges, which keep
the module that it names and not the names that it takes from there.
-/
import HermesPipeline.Lib.PyText
import HermesPipeline.RenderedDiagnostics
import Mathlib.Data.List.Basic

namespace HermesPipeline

open Lib

namespace ImportRules

open RenderedDiagnostics (Diagnostic decimal)

abbrev Name := PyText

def word (text : String) : PyText := .ofLetters text.toList

def dot : PyChar := .scalar '.'

/-- A dotted name as it stands in an import statement. -/
structure DottedName where
  segments : List Name
  named : ∀ segment ∈ segments, segment ≠ [] ∧ dot ∉ segment

/-- The name with its dots. -/
def DottedName.text (name : DottedName) : PyText := [dot].intercalate name.segments

/-- `ast.alias` of `import`. -/
structure Alias where
  name : DottedName
  asName : Option Name

/-- `ast.alias` of `from`; the name may be `*`. -/
structure Imported where
  name : Name
  asName : Option Name

/-- `ast.Import` and `ast.ImportFrom`. -/
inductive Import
  | names (line : Nat) (aliases : List Alias)
  | from (line level : Nat) (module : DottedName) (taken : List Imported)

def Import.line : Import → Nat
  | .names line _ => line
  | .from line _ _ _ => line

/-- What is called: a name, an attribute of a name, or anything else. -/
inductive Callee
  | name (id : Name)
  | attribute (value : Option Name) (attr : Name)
  | other

/-- A node of a syntax tree. -/
inductive Node
  | statement (statement : Import)
  | call (line : Nat) (func : Callee) (children : List Node)
  | other (children : List Node)

/-- `_ImportEdge`. -/
structure ImportEdge where
  line : Nat
  level : Nat
  module : PyText

/-- `_ImportAnalyzer`. -/
structure Analyzer where
  edges : List ImportEdge
  aliases : List (Name × PyText)
  dynamicImportLines : List Nat

namespace Analyzer

/-- `self.aliases.get(name)`; the last assignment counts. -/
def alias? (analyzer : Analyzer) (name : Name) : Option PyText :=
  (analyzer.aliases.find? fun entry => entry.1 = name).map Prod.snd

/-- `visit_Import`, for one name. -/
def addName (line : Nat) (analyzer : Analyzer) (imported : Alias) : Analyzer :=
  { analyzer with
    edges := analyzer.edges ++ [⟨line, 0, imported.name.text⟩]
    aliases := (imported.asName.getD (imported.name.segments.headD []), imported.name.text) ::
      analyzer.aliases }

/-- What `visit_ImportFrom` binds for one name. -/
def addTaken (module : PyText) (analyzer : Analyzer) (taken : Imported) : Analyzer :=
  if taken.name = word "*" then analyzer
  else { analyzer with
    aliases := (taken.asName.getD taken.name,
      if module = [] then taken.name else module ++ [dot] ++ taken.name) :: analyzer.aliases }

/-- `visit_Import` and `visit_ImportFrom`. -/
def visitImport (analyzer : Analyzer) : Import → Analyzer
  | .names line aliases => aliases.foldl (addName line) analyzer
  | .from line level module taken =>
      let edged := { analyzer with edges := analyzer.edges ++ [⟨line, level, module.text⟩] }
      if level = 0 then taken.foldl (addTaken module.text) edged else edged

/-- The test of `visit_Call`. -/
def isDynamic (analyzer : Analyzer) : Callee → Bool
  | .name id => id = word "__import__" || analyzer.alias? id = some (word "importlib.import_module")
  | .attribute (some value) attr => attr = word "import_module" &&
      (value = word "importlib" || analyzer.alias? value = some (word "importlib"))
  | .attribute none _ => false
  | .other => false

def visitCall (analyzer : Analyzer) (line : Nat) (func : Callee) : Analyzer :=
  if analyzer.isDynamic func then
    { analyzer with dynamicImportLines := analyzer.dynamicImportLines ++ [line] }
  else analyzer

mutual

/-- `visit`. -/
def visit (analyzer : Analyzer) : Node → Analyzer
  | .statement statement => analyzer.visitImport statement
  | .call line func children => visitAll (analyzer.visitCall line func) children
  | .other children => visitAll analyzer children
termination_by structural node => node

def visitAll (analyzer : Analyzer) : List Node → Analyzer
  | [] => analyzer
  | node :: rest => visitAll (visit analyzer node) rest
termination_by structural nodes => nodes

end

end Analyzer

/-- A Python file of the tree; `tree` is what `ast.parse` answers, or its error. -/
structure SourceFile where
  dirs : List Name
  fileName : Name
  tree : Except PyText (List Node)

/-- `file.relative_to(root).as_posix()`. -/
def SourceFile.rel (file : SourceFile) : PyText :=
  [.scalar '/'].intercalate (file.dirs ++ [file.fileName])

/-- A package tree, with its files in the order of `sorted(root.rglob("*.py"))`. -/
structure PackageTree where
  above : List Name
  name : Name
  directories : List Name
  files : List SourceFile
  distinct : (files.map SourceFile.rel).Nodup

/-- `"__pycache__" in file.parts`. -/
def PackageTree.cached (tree : PackageTree) (file : SourceFile) : Bool :=
  word "__pycache__" ∈ tree.above ++ tree.name :: file.dirs ++ [file.fileName]

def coreModules : List Name := ["domain", "contracts", "controller"].map word

def controllerForbiddenTopLevel : List Name :=
  ["anthropic", "boto3", "fastapi", "github", "google", "httpx", "langgraph", "lark_oapi",
    "openai", "os", "pathlib", "requests", "shutil", "sqlalchemy", "subprocess",
    "tempfile"].map word

def adapterSegments : List Name := ["adapter", "adapters"].map word

def shimTopLevelNames : List Name := ["hermes_shim", "hermes_plugin", "plugin", "shim"].map word

/-- `_package_parts`. -/
def packageParts (rootName : Name) (file : SourceFile) : List Name := rootName :: file.dirs

/-- `tuple(p for p in module.split(".") if p)`. -/
def parts (module : PyText) : List Name := (module.splitOn dot).filter fun part => part ≠ []

/-- `_resolve_edge`. -/
def resolveEdge (edge : ImportEdge) (package : List Name) (rootName : Name) :
    Option Name × Option (List Name) :=
  if edge.level = 0 then
    match parts edge.module with
    | [] => (none, some [])
    | first :: rest => if first = rootName then (some rootName, some rest) else (some first, none)
  else if edge.level > package.length then (none, some [word "<escape>"])
  else
    let base := package.take (package.length - (edge.level - 1))
    (some rootName, some (base.tail ++ parts edge.module))

section Check

variable (stdlibTopLevelNames : List Name)

/-- `_domain_target_allowed`. -/
def domainTargetAllowed (inside : Bool) (inPackageTarget topLevel : Option Name) : Bool :=
  if inside then
    inPackageTarget = some (word "contracts") || inPackageTarget = some (word "domain")
  else
    match topLevel with
    | none => true
    | some topLevel => topLevel ∈ stdlibTopLevelNames

/-- `f"{text!r}"` of a name. -/
def quoted (text : PyText) : PyText := .scalar '\'' :: text ++ [.scalar '\'']

def hasAdapter (inner : List Name) : Bool := inner.any fun part => part ∈ adapterSegments

def isInside (inner : Option (List Name)) : Bool :=
  inner ≠ none && inner ≠ some [word "<escape>"]

/-- The inner parts name an Adapter of the package. -/
def reachesAdapter (inner : Option (List Name)) : Bool :=
  isInside inner && hasAdapter (inner.getD [])

/-- `diagnostics.append` below a test. -/
def reportIf (fires : Bool) (d : Diagnostic) : List Diagnostic := if fires then [d] else []

/-- `_check_edge`. -/
def checkEdge (edge : ImportEdge) (package : List Name) (rootName : Name)
    (submodules : List Name) (rel : PyText) : List Diagnostic :=
  let resolved := resolveEdge edge package rootName
  let topLevel := resolved.1
  let inner := resolved.2
  let inside := isInside inner
  let inPackageTarget := if inside then (inner.getD []).head? else none
  let report (rule : String) (message : PyText) : Diagnostic :=
    ⟨rel, edge.line, word rule, message⟩
  reportIf (edge.level = 0 && topLevel.any fun name => name ∈ submodules)
    (report "ARCH-01" (word "bare absolute import " ++ quoted edge.module ++
      word " resolves to a package submodule; use the '" ++ rootName ++ [dot] ++ edge.module ++
      word "' prefix")) ++
  reportIf (edge.level ≥ 2 || (edge.level > 0 && inner = some [word "<escape>"]))
    (report "ARCH-02" (word "relative import at level " ++ .ofLetters (decimal edge.level) ++
      word " crosses a Module boundary; use a full 'hermes_pipeline.' absolute import")) ++
  reportIf (package.tail.head?.any (fun name => name ∈ coreModules) && reachesAdapter inner)
    (report "ARCH-04" (word "core Module imports an Adapter (" ++
      [dot].intercalate (inner.getD []) ++
      word "); Adapters depend inward on Interfaces, never the reverse")) ++
  reportIf (package.tail.head? = some (word "domain") &&
      !domainTargetAllowed stdlibTopLevelNames inside inPackageTarget topLevel)
    (report "ARCH-05" (word
      "domain imports something outside the standard library and contract value types")) ++
  (if package.tail.head? = some (word "controller") then
    reportIf (topLevel.any fun name => name ∈ controllerForbiddenTopLevel)
      (report "ARCH-06" (word "controller must not import " ++ topLevel.getD [])) ++
    reportIf (reachesAdapter inner)
      (report "ARCH-06" (word "controller must not import a concrete Adapter"))
  else []) ++
  reportIf (topLevel.any fun name => name ∈ shimTopLevelNames)
    (report "ARCH-08" (word "import " ++ quoted (topLevel.getD []) ++
      word " refers to the root Hermes plugin Shim, which no package may import"))

/-- `check_package_tree`, for one file. -/
def checkFile (tree : PackageTree) (file : SourceFile) : List Diagnostic :=
  if tree.cached file then []
  else
    match file.tree with
    | .error exc => [⟨file.rel, 1, word "ARCH-99", word "cannot parse source: " ++ exc⟩]
    | .ok nodes =>
        let analyzer := Analyzer.visitAll ⟨[], [], []⟩ nodes
        (analyzer.edges.flatMap fun edge =>
          checkEdge stdlibTopLevelNames edge (packageParts tree.name file) tree.name
            (tree.directories.filter fun name => name.head? ≠ some dot) file.rel) ++
        analyzer.dynamicImportLines.map fun line =>
          ⟨file.rel, line, word "ARCH-03",
            word "dynamic import via __import__/importlib.import_module is forbidden"⟩

/-- `check_package_tree`, where the root is a directory. -/
def checkPackageTree (tree : PackageTree) : List Diagnostic :=
  tree.files.flatMap (checkFile stdlibTopLevelNames tree)

end Check

section Statements

/-- The edges of a statement. -/
def Import.edges : Import → List ImportEdge
  | .names line aliases => aliases.map fun entry => ⟨line, 0, entry.name.text⟩
  | .from line level module _ => [⟨line, level, module.text⟩]

mutual

/-- The import statements of a node, at any depth. -/
def importsOf : Node → List Import
  | .statement statement => [statement]
  | .call _ _ children => importsOfAll children
  | .other children => importsOfAll children
termination_by structural node => node

def importsOfAll : List Node → List Import
  | [] => []
  | node :: rest => importsOf node ++ importsOfAll rest
termination_by structural nodes => nodes

end

theorem edges_foldl_addName (line : Nat) (aliases : List Alias) (analyzer : Analyzer) :
    (aliases.foldl (Analyzer.addName line) analyzer).edges =
      analyzer.edges ++ aliases.map fun entry => ⟨line, 0, entry.name.text⟩ := by
  induction aliases generalizing analyzer with
  | nil => simp
  | cons entry rest ih =>
      rw [List.foldl_cons, ih]
      simp [Analyzer.addName]

theorem edges_foldl_addTaken (module : PyText) (taken : List Imported) (analyzer : Analyzer) :
    (taken.foldl (Analyzer.addTaken module) analyzer).edges = analyzer.edges := by
  induction taken generalizing analyzer with
  | nil => rfl
  | cons entry rest ih =>
      rw [List.foldl_cons, ih, Analyzer.addTaken]
      split <;> rfl

theorem edges_visitImport (analyzer : Analyzer) (statement : Import) :
    (analyzer.visitImport statement).edges = analyzer.edges ++ statement.edges := by
  cases statement with
  | names line aliases => exact edges_foldl_addName line aliases analyzer
  | «from» line level module taken =>
      rw [Analyzer.visitImport]
      split
      · rw [edges_foldl_addTaken]
        rfl
      · rfl

theorem edges_visitCall (analyzer : Analyzer) (line : Nat) (func : Callee) :
    (analyzer.visitCall line func).edges = analyzer.edges := by
  rw [Analyzer.visitCall]
  split <;> rfl

mutual

/-- The visitor meets the statements at every depth. -/
theorem edges_visit (analyzer : Analyzer) : ∀ node : Node,
    (Analyzer.visit analyzer node).edges =
      analyzer.edges ++ (importsOf node).flatMap Import.edges
  | .statement statement => by
      rw [Analyzer.visit, edges_visitImport, importsOf, List.flatMap_singleton]
  | .call line func children => by
      rw [Analyzer.visit, edges_visitAll, edges_visitCall, importsOf]
  | .other children => by rw [Analyzer.visit, edges_visitAll, importsOf]

theorem edges_visitAll (analyzer : Analyzer) : ∀ nodes : List Node,
    (Analyzer.visitAll analyzer nodes).edges =
      analyzer.edges ++ (importsOfAll nodes).flatMap Import.edges
  | [] => by simp [Analyzer.visitAll, importsOfAll]
  | node :: rest => by
      rw [Analyzer.visitAll, edges_visitAll (Analyzer.visit analyzer node) rest,
        edges_visit analyzer node, importsOfAll, List.flatMap_append, List.append_assoc]

end

/-- Splitting a dotted name gives its segments. -/
theorem parts_text (name : DottedName) : parts name.text = name.segments := by
  rw [parts, DottedName.text]
  by_cases hnil : name.segments = []
  · rw [hnil]
    rfl
  · rw [List.splitOn_intercalate dot (fun segment hmem => (name.named segment hmem).2) hnil]
    exact List.filter_eq_self.mpr fun segment hmem => by simpa using (name.named segment hmem).1

end Statements

section ImportSystem

/-- What the import system answers for a package: the modules that it finds, the module,
if any, that a name of a module stands for, and the names that a star takes. -/
structure ImportSystem where
  found : List Name → Bool
  bound : List Name → Name → Option (List Name)
  starNames : List Name → List Name

variable (rootName : Name) (package : List Name)

/-- The module of the package that a `from` names, relative to the package of its file. -/
def moduleInner (level : Nat) (segments : List Name) : Option (List Name) :=
  if level = 0 then
    match segments with
    | [] => none
    | first :: rest => if first = rootName then some rest else none
  else if level > package.length then none
  else some ((package.take (package.length - (level - 1))).tail ++ segments)

/-- A statement spells out a module of the package. -/
inductive NamesModule : Import → List Name → Prop
  | names {line aliases entry inner} : entry ∈ aliases →
      entry.name.segments = rootName :: inner → NamesModule (.names line aliases) inner
  | from {line level module taken inner} :
      moduleInner rootName package level module.segments = some inner →
      NamesModule (.from line level module taken) inner

/-- A statement loads a module of the package, or binds a name to it. -/
inductive Loads (system : ImportSystem) : Import → List Name → Prop
  | module {statement inner path} : NamesModule rootName package statement inner →
      path <+: inner → system.found path = true → Loads system statement path
  | taken {line level module taken inner entry path} :
      moduleInner rootName package level module.segments = some inner → entry ∈ taken →
      system.bound inner entry.name = some path →
      Loads system (.from line level module taken) path
  | star {line level module taken inner entry name path} :
      moduleInner rootName package level module.segments = some inner → entry ∈ taken →
      entry.name = word "*" → name ∈ system.starNames inner →
      system.bound inner name = some path → Loads system (.from line level module taken) path

/-- The dotted path of a module that a statement loads, the package's own name in front,
has an Adapter segment. -/
def LoadsAdapter (system : ImportSystem) (statement : Import) : Prop :=
  ∃ path, Loads rootName package system statement path ∧ hasAdapter (rootName :: path) = true

/-- An Adapter stands below the package's name in the path of a module that the statement
spells out. -/
def SpellsAdapter (statement : Import) : Prop :=
  ∃ inner, NamesModule rootName package statement inner ∧ hasAdapter inner = true

variable {rootName package}

theorem reachesAdapter_iff {inner : List Name} :
    reachesAdapter (some inner) = true ↔ hasAdapter inner = true := by
  rw [reachesAdapter, Bool.and_eq_true]
  refine and_iff_right_of_imp fun hadapter => ?_
  rw [isInside, Bool.and_eq_true, decide_eq_true_eq, decide_eq_true_eq]
  refine ⟨nofun, ?_⟩
  rintro ⟨⟩
  exact absurd hadapter (by decide)

/-- The edges of a statement reach an Adapter exactly when it spells one out. -/
theorem edges_reach_iff (statement : Import) :
    (∃ edge ∈ statement.edges, reachesAdapter (resolveEdge edge package rootName).2 = true) ↔
      SpellsAdapter rootName package statement := by
  cases statement with
  | names line aliases =>
      constructor
      · rintro ⟨edge, hedge, hreaches⟩
        obtain ⟨entry, hentry, rfl⟩ := List.mem_map.mp hedge
        rw [resolveEdge, if_pos rfl, parts_text] at hreaches
        cases hsegments : entry.name.segments with
        | nil =>
            rw [hsegments] at hreaches
            exact absurd (reachesAdapter_iff.mp hreaches) (by decide)
        | cons first rest =>
            simp only [hsegments] at hreaches
            split at hreaches
            · next hroot =>
                exact ⟨rest, .names hentry (by rw [hsegments, hroot]),
                  reachesAdapter_iff.mp hreaches⟩
            · exact absurd hreaches Bool.false_ne_true
      · rintro ⟨inner, hnames, hadapter⟩
        cases hnames with
        | @names _ _ entry _ hentry hsegments =>
            refine ⟨_, List.mem_map_of_mem hentry, ?_⟩
            rw [resolveEdge, if_pos rfl, parts_text, hsegments]
            simp only [if_true]
            exact reachesAdapter_iff.mpr hadapter
  | «from» line level module taken =>
      rw [Import.edges]
      simp only [List.mem_singleton, exists_eq_left]
      have hresolved : reachesAdapter (resolveEdge ⟨line, level, module.text⟩ package rootName).2 =
          true ↔ ∃ inner, moduleInner rootName package level module.segments = some inner ∧
            hasAdapter inner = true := by
        unfold resolveEdge moduleInner
        by_cases hlevel : level = 0
        · rw [if_pos hlevel, if_pos hlevel, parts_text]
          cases module.segments with
          | nil => exact iff_of_false Bool.false_ne_true (fun ⟨_, h, _⟩ => by cases h)
          | cons first rest =>
              by_cases hroot : first = rootName
              · simp only [if_pos hroot, Option.some.injEq, exists_eq_left']
                exact reachesAdapter_iff
              · simp only [if_neg hroot]
                exact iff_of_false Bool.false_ne_true (fun ⟨_, h, _⟩ => by cases h)
        · rw [if_neg hlevel, if_neg hlevel]
          by_cases hescape : level > package.length
          · rw [if_pos hescape, if_pos hescape]
            exact iff_of_false (by decide) (fun ⟨_, h, _⟩ => by cases h)
          · rw [if_neg hescape, if_neg hescape, parts_text]
            simp only [Option.some.injEq, exists_eq_left']
            exact reachesAdapter_iff
      rw [hresolved]
      constructor
      · rintro ⟨inner, hinner, hadapter⟩
        exact ⟨inner, .from hinner, hadapter⟩
      · rintro ⟨inner, hnames, hadapter⟩
        cases hnames with
        | «from» hinner => exact ⟨inner, hinner, hadapter⟩

end ImportSystem

section Reports

variable (stdlibTopLevelNames : List Name)

/-- A diagnostic of the rule for the file and the line. -/
def Reported (tree : PackageTree) (file : SourceFile) (line : Nat) (rule : String) : Prop :=
  ∃ d ∈ checkPackageTree stdlibTopLevelNames tree,
    d.path = file.rel ∧ d.line = line ∧ d.rule = word rule

/-- The package part of a file names a core Module. -/
def InCore (file : SourceFile) : Prop := ∃ name ∈ coreModules, file.dirs.head? = some name

variable {stdlibTopLevelNames}

theorem mem_reportIf {fires : Bool} {d other : Diagnostic} :
    d ∈ reportIf fires other ↔ fires = true ∧ d = other := by
  cases fires <;> simp [reportIf]

theorem checkEdge_place {edge : ImportEdge} {package : List Name} {rootName : Name}
    {submodules : List Name} {rel : PyText} {d : Diagnostic}
    (hmem : d ∈ checkEdge stdlibTopLevelNames edge package rootName submodules rel) :
    d.path = rel ∧ d.line = edge.line := by
  simp only [checkEdge, List.mem_append, mem_reportIf] at hmem
  rcases hmem with ((((⟨-, rfl⟩ | ⟨-, rfl⟩) | ⟨-, rfl⟩) | ⟨-, rfl⟩) | hmem) | ⟨-, rfl⟩
  · exact ⟨rfl, rfl⟩
  · exact ⟨rfl, rfl⟩
  · exact ⟨rfl, rfl⟩
  · exact ⟨rfl, rfl⟩
  · split at hmem
    · simp only [List.mem_append, mem_reportIf] at hmem
      rcases hmem with ⟨-, rfl⟩ | ⟨-, rfl⟩
      · exact ⟨rfl, rfl⟩
      · exact ⟨rfl, rfl⟩
    · exact absurd hmem List.not_mem_nil
  · exact ⟨rfl, rfl⟩

/-- The rule about Adapters in core Modules. -/
theorem checkEdge_arch04 {edge : ImportEdge} {package : List Name} {rootName : Name}
    {submodules : List Name} {rel : PyText} :
    (∃ d ∈ checkEdge stdlibTopLevelNames edge package rootName submodules rel,
        d.rule = word "ARCH-04") ↔
      package.tail.head?.any (fun name => name ∈ coreModules) = true ∧
        reachesAdapter (resolveEdge edge package rootName).2 = true := by
  have hrules : ∀ rule ∈ ["ARCH-01", "ARCH-02", "ARCH-05", "ARCH-06", "ARCH-08"],
      word rule ≠ word "ARCH-04" := by decide
  constructor
  · rintro ⟨d, hmem, hrule⟩
    simp only [checkEdge, List.mem_append, mem_reportIf] at hmem
    rcases hmem with ((((⟨-, rfl⟩ | ⟨-, rfl⟩) | ⟨hfires, -⟩) | ⟨-, rfl⟩) | hmem) | ⟨-, rfl⟩
    · exact absurd hrule (hrules "ARCH-01" (by decide))
    · exact absurd hrule (hrules "ARCH-02" (by decide))
    · exact Bool.and_eq_true_iff.mp hfires
    · exact absurd hrule (hrules "ARCH-05" (by decide))
    · split at hmem
      · simp only [List.mem_append, mem_reportIf] at hmem
        rcases hmem with ⟨-, rfl⟩ | ⟨-, rfl⟩
        · exact absurd hrule (hrules "ARCH-06" (by decide))
        · exact absurd hrule (hrules "ARCH-06" (by decide))
      · exact absurd hmem List.not_mem_nil
    · exact absurd hrule (hrules "ARCH-08" (by decide))
  · rintro ⟨hcore, hreaches⟩
    refine ⟨⟨rel, edge.line, word "ARCH-04", word "core Module imports an Adapter (" ++
      [dot].intercalate ((resolveEdge edge package rootName).2.getD []) ++
      word "); Adapters depend inward on Interfaces, never the reverse"⟩, ?_, rfl⟩
    simp only [checkEdge, List.mem_append, mem_reportIf]
    exact .inl (.inl (.inl (.inr ⟨Bool.and_eq_true_iff.mpr ⟨hcore, hreaches⟩, trivial⟩)))

/-- The rule about Adapters in the controller. -/
theorem checkEdge_arch06 {edge : ImportEdge} {package : List Name} {rootName : Name}
    {submodules : List Name} {rel : PyText}
    (hcontroller : package.tail.head? = some (word "controller"))
    (hreaches : reachesAdapter (resolveEdge edge package rootName).2 = true) :
    (⟨rel, edge.line, word "ARCH-06", word "controller must not import a concrete Adapter"⟩ :
        Diagnostic) ∈
      checkEdge stdlibTopLevelNames edge package rootName submodules rel := by
  simp only [checkEdge, List.mem_append, mem_reportIf]
  refine .inl (.inr ?_)
  rw [if_pos hcontroller, List.mem_append, mem_reportIf, mem_reportIf]
  exact .inr ⟨hreaches, rfl⟩

theorem checkFile_path {tree : PackageTree} {file : SourceFile} {d : Diagnostic}
    (hmem : d ∈ checkFile stdlibTopLevelNames tree file) : d.path = file.rel := by
  rw [checkFile] at hmem
  split at hmem
  · exact absurd hmem List.not_mem_nil
  · split at hmem
    · rw [List.mem_singleton.mp hmem]
    · rcases List.mem_append.mp hmem with hmem | hmem
      · obtain ⟨edge, -, hedge⟩ := List.mem_flatMap.mp hmem
        exact (checkEdge_place hedge).1
      · obtain ⟨line, -, rfl⟩ := List.mem_map.mp hmem
        rfl

/-- The diagnostics for a path are those of its file. -/
theorem reported_iff_checkFile {tree : PackageTree} {file : SourceFile}
    (hfile : file ∈ tree.files) (line : Nat) (rule : String) :
    Reported stdlibTopLevelNames tree file line rule ↔
      ∃ d ∈ checkFile stdlibTopLevelNames tree file, d.line = line ∧ d.rule = word rule := by
  constructor
  · rintro ⟨d, hmem, hpath, hline, hrule⟩
    obtain ⟨other, hother, hmem⟩ := List.mem_flatMap.mp hmem
    have hsame : other = file :=
      List.inj_on_of_nodup_map tree.distinct hother hfile ((checkFile_path hmem).symm.trans hpath)
    exact ⟨d, hsame ▸ hmem, hline, hrule⟩
  · rintro ⟨d, hmem, hline, hrule⟩
    exact ⟨d, List.mem_flatMap.mpr ⟨file, hfile, hmem⟩, checkFile_path hmem, hline, hrule⟩

variable {tree : PackageTree} {file : SourceFile} {nodes : List Node}

theorem core_of_inCore (hcore : InCore file) :
    (packageParts tree.name file).tail.head?.any (fun name => name ∈ coreModules) = true := by
  obtain ⟨name, hname, hhead⟩ := hcore
  rw [packageParts, List.tail_cons, hhead]
  simpa using hname

/-- The edges of a file are those of its statements. -/
theorem mem_analyzed {edge : ImportEdge} :
    edge ∈ (Analyzer.visitAll ⟨[], [], []⟩ nodes).edges ↔
      ∃ statement ∈ importsOfAll nodes, edge ∈ statement.edges := by
  rw [edges_visitAll, List.nil_append, List.mem_flatMap]

theorem line_of_mem_edges {statement : Import} {edge : ImportEdge}
    (hmem : edge ∈ statement.edges) : edge.line = statement.line := by
  cases statement with
  | names line aliases =>
      obtain ⟨entry, -, rfl⟩ := List.mem_map.mp hmem
      rfl
  | «from» line level module taken =>
      rw [List.mem_singleton.mp hmem]
      rfl

/-- A line is reported for an Adapter exactly when one of its statements spells it
out. -/
theorem reported_arch04_iff (hfile : file ∈ tree.files) (hcore : InCore file)
    (hparsed : file.tree = .ok nodes) (line : Nat) :
    Reported stdlibTopLevelNames tree file line "ARCH-04" ↔
      tree.cached file = false ∧ ∃ statement ∈ importsOfAll nodes, statement.line = line ∧
        SpellsAdapter tree.name (packageParts tree.name file) statement := by
  rw [reported_iff_checkFile hfile, checkFile]
  cases hcached : tree.cached file with
  | true => exact iff_of_false (fun ⟨_, hmem, _⟩ => absurd hmem List.not_mem_nil) (by simp)
  | false =>
      simp only [Bool.false_eq_true, if_false, hparsed, true_and]
      constructor
      · rintro ⟨d, hmem, hline, hrule⟩
        rcases List.mem_append.mp hmem with hmem | hmem
        · obtain ⟨edge, hedge, hd⟩ := List.mem_flatMap.mp hmem
          obtain ⟨statement, hstatement, hinside⟩ := mem_analyzed.mp hedge
          have hreaches := (checkEdge_arch04.mp ⟨d, hd, hrule⟩).2
          refine ⟨statement, hstatement, ?_, (edges_reach_iff statement).mp ⟨edge, hinside, hreaches⟩⟩
          rw [(checkEdge_place hd).2, line_of_mem_edges hinside] at hline
          exact Int.ofNat.inj hline
        · obtain ⟨other, -, rfl⟩ := List.mem_map.mp hmem
          exact absurd hrule (by decide : word "ARCH-03" ≠ word "ARCH-04")
      · rintro ⟨statement, hstatement, hline, hspells⟩
        obtain ⟨edge, hinside, hreaches⟩ := (edges_reach_iff statement).mpr hspells
        obtain ⟨d, hd, hrule⟩ :=
          checkEdge_arch04.mpr ⟨@core_of_inCore tree file hcore, hreaches⟩
        refine ⟨d, List.mem_append_left _ (List.mem_flatMap.mpr
          ⟨edge, mem_analyzed.mpr ⟨statement, hstatement, hinside⟩, hd⟩), ?_, hrule⟩
        rw [(checkEdge_place hd).2, line_of_mem_edges hinside, hline]

/-- In the controller such a line is reported for the concrete Adapter as well. -/
theorem reported_arch06 (hfile : file ∈ tree.files) (hparsed : file.tree = .ok nodes)
    (hcontroller : file.dirs.head? = some (word "controller")) {line : Nat}
    (hcached : tree.cached file = false) {statement : Import}
    (hstatement : statement ∈ importsOfAll nodes) (hline : statement.line = line)
    (hspells : SpellsAdapter tree.name (packageParts tree.name file) statement) :
    Reported stdlibTopLevelNames tree file line "ARCH-06" := by
  obtain ⟨edge, hinside, hreaches⟩ := (edges_reach_iff statement).mpr hspells
  rw [reported_iff_checkFile hfile, checkFile, hcached]
  simp only [Bool.false_eq_true, if_false, hparsed]
  refine ⟨_, List.mem_append_left _ (List.mem_flatMap.mpr ⟨edge,
    mem_analyzed.mpr ⟨statement, hstatement, hinside⟩,
    checkEdge_arch06 hcontroller hreaches⟩), ?_, rfl⟩
  rw [line_of_mem_edges hinside, hline]

/-- What the rules demand for a statement. -/
def Enforced (stdlibTopLevelNames : List Name) (tree : PackageTree) (file : SourceFile)
    (statement : Import) : Prop :=
  Reported stdlibTopLevelNames tree file statement.line "ARCH-04" ∧
    (file.dirs.head? = some (word "controller") →
      Reported stdlibTopLevelNames tree file statement.line "ARCH-06")

/-- A statement that loads an Adapter is reported exactly when its file is looked at and a
statement of its line spells an Adapter out. -/
theorem import_rules_enforced_iff (stdlibTopLevelNames : List Name) (system : ImportSystem)
    (hfile : file ∈ tree.files) (hcore : InCore file) (hparsed : file.tree = .ok nodes)
    (statement : Import) :
    (LoadsAdapter tree.name (packageParts tree.name file) system statement →
        Enforced stdlibTopLevelNames tree file statement) ↔
      (LoadsAdapter tree.name (packageParts tree.name file) system statement →
        tree.cached file = false ∧ ∃ other ∈ importsOfAll nodes, other.line = statement.line ∧
          SpellsAdapter tree.name (packageParts tree.name file) other) := by
  refine imp_congr_right fun _ => ?_
  constructor
  · intro henforced
    exact (reported_arch04_iff hfile hcore hparsed statement.line).mp henforced.1
  · rintro ⟨hcached, other, hother, hline, hspells⟩
    refine ⟨(reported_arch04_iff hfile hcore hparsed statement.line).mpr
      ⟨hcached, other, hother, hline, hspells⟩, fun hcontroller => ?_⟩
    exact reported_arch06 hfile hparsed hcontroller hcached hother hline hspells

end Reports

namespace ImportWitness

theorem pkg_named : ∀ segment ∈ [word "pkg"], segment ≠ [] ∧ dot ∉ segment := by decide

def pkg : DottedName := ⟨[word "pkg"], pkg_named⟩

/-- `from pkg import adapters`. -/
def takesAdapters : Import := .from 1 0 pkg [⟨word "adapters", none⟩]

def valueFile : SourceFile where
  dirs := [word "domain"]
  fileName := word "value.py"
  tree := .ok [.statement takesAdapters]

def adaptersFile : SourceFile where
  dirs := [word "adapters"]
  fileName := word "__init__.py"
  tree := .ok []

theorem sample_distinct : ([adaptersFile, valueFile].map SourceFile.rel).Nodup := by decide

/-- A package with Adapters and a core file that takes them from the package. -/
def sample : PackageTree where
  above := [word "/", word "src"]
  name := word "pkg"
  directories := [word "adapters", word "domain"]
  files := [adaptersFile, valueFile]
  distinct := sample_distinct

/-- The import system on this package. -/
def system : ImportSystem where
  found path := path ∈ [[], [word "adapters"], [word "domain"], [word "domain", word "value"]]
  bound inner name :=
    if inner = [] ∧ name ∈ [word "adapters", word "domain"] then some [name] else none
  starNames _ := []

theorem sample_loads :
    LoadsAdapter sample.name (packageParts sample.name valueFile) system takesAdapters := by
  have hinner : moduleInner sample.name (packageParts sample.name valueFile) 0
      pkg.segments = some [] := by decide
  have hbound : system.bound [] (word "adapters") = some [word "adapters"] := by decide
  exact ⟨[word "adapters"], .taken hinner List.mem_cons_self hbound, by decide⟩

theorem not_spelled :
    ¬ SpellsAdapter sample.name (packageParts sample.name valueFile) takesAdapters := by
  rintro ⟨inner, hnames, hadapter⟩
  cases hnames with
  | «from» hinner =>
      have hnil : moduleInner sample.name (packageParts sample.name valueFile) 0
          pkg.segments = some [] := by decide
      rw [hnil, Option.some.injEq] at hinner
      subst hinner
      exact absurd hadapter (by decide)

theorem valueFile_core : InCore valueFile := ⟨word "domain", by decide, by decide⟩

theorem valueFile_mem : valueFile ∈ sample.files := .tail _ List.mem_cons_self

/-- Adapters that are taken from the package by name are not reported. -/
theorem taken_adapters_missed :
    ¬ ∀ (stdlibTopLevelNames : List Name) (system : ImportSystem) (tree : PackageTree)
        (file : SourceFile) (nodes : List Node) (statement : Import),
      file ∈ tree.files → InCore file → file.tree = .ok nodes →
        statement ∈ importsOfAll nodes →
          LoadsAdapter tree.name (packageParts tree.name file) system statement →
            Enforced stdlibTopLevelNames tree file statement := by
  intro hclaim
  have hreported := (hclaim [] system sample valueFile _ takesAdapters valueFile_mem
    valueFile_core rfl (List.mem_singleton_self _) sample_loads).1
  obtain ⟨-, other, hother, -, hspells⟩ :=
    (reported_arch04_iff valueFile_mem valueFile_core rfl _).mp hreported
  obtain rfl := List.mem_singleton.mp hother
  exact not_spelled hspells

/-- On this file the two sides of the condition fail together. -/
theorem import_rules_sample :
    (LoadsAdapter sample.name (packageParts sample.name valueFile) system takesAdapters →
        Enforced [] sample valueFile takesAdapters) ↔
      (LoadsAdapter sample.name (packageParts sample.name valueFile) system takesAdapters →
        sample.cached valueFile = false ∧ ∃ other ∈ importsOfAll [.statement takesAdapters],
          other.line = takesAdapters.line ∧
            SpellsAdapter sample.name (packageParts sample.name valueFile) other) :=
  import_rules_enforced_iff [] system valueFile_mem valueFile_core rfl takesAdapters

end ImportWitness

end ImportRules

end HermesPipeline
