import Scaffold.Proofs.FileLiterals
import Scaffold.Proofs.Rendering

/-!
What the paths of a descriptor become in the text of its bootstrap. They are the literals of the
text up to the few that every bootstrap has, so whatever characters a path is made of, nothing of it
is read as code.
-/

namespace Scaffold

open Source

namespace Service

/-- The literals that stand behind the endpoints in every bootstrap. -/
def commonLiterals : List Literal :=
  [.text "/", .char '/', .text "\x7bpath\x7d/", .text "\x7bpath\x7d?\x7bquery\x7d"]

theorem literals_methodFilterExpr (ms : List Method) :
    (methodFilterExpr ms).value.literals = [] := by
  cases ms with
  | nil => rfl
  | cons m ms =>
    have hfold : ∀ set : Expr, set.literals = [] →
        (ms.foldl (fun set m => .method set "or" [.ofMember Vocabulary.methodFilter m.name])
          set).literals = [] := by
      induction ms with
      | nil => exact fun _ h => h
      | cons m ms ih =>
        intro set h
        exact ih _ (by simp [Expr.literals, exprLiterals, Expr.ofMember, h])
    have hfilter := hfold (.ofMember Vocabulary.methodFilter m.name) rfl
    simp [value_methodFilterExpr_cons, Expr.literals, exprLiterals, hfilter]

theorem literals_endpointExpr (n : Names) (e : Endpoint) :
    (endpointExpr n e).value.literals = [.text e.route.path] := by
  simp [endpointExpr, Expr.literals, fieldLiterals, exprLiterals, literals_methodFilterExpr,
    capabilityMethod]

theorem literals_routesFunction (d : Descriptor) (n : Names) :
    (routesFunction d n).value.literals =
      (d.endpoints.map fun e => .text e.route.path) ++ [.text "/"] := by
  have hendpoints : exprLiterals (d.endpoints.map fun e => (endpointExpr n e).value) =
      d.endpoints.map fun e => .text e.route.path := by
    simp only [exprLiterals_eq_flatMap, List.flatMap_map, literals_endpointExpr]
    exact List.map_eq_flatMap.symm
  have hregister : stmtLiterals registerEndpoint.value = [.text "/"] := rfl
  simp [Function.literals, routesFunction, stmtLiterals, Stmt.literals, Expr.literals, hendpoints,
    hregister]

theorem literals_middlewaresFunction (d : Descriptor) (n : Names) :
    (middlewaresFunction d n).value.literals = [] := by
  have hmiddlewares : exprLiterals (d.middlewaresByPriority.map fun m =>
      (capabilityMethod n.middleware m.handler).value) = [] := by
    simp [exprLiterals_eq_flatMap, capabilityMethod, Expr.literals]
  have happly : stmtLiterals applyMiddleware.value = [] := rfl
  simp [Function.literals, middlewaresFunction, stmtLiterals, Stmt.literals, Expr.literals,
    exprLiterals, Stmt.comments, hmiddlewares, happly]

/-- The literals of a bootstrap are the paths of its endpoints, in order, and the common ones. -/
theorem literals_bootstrap (d : Descriptor) : (bootstrap d).literals =
    (d.endpoints.map fun e => .text e.route.path) ++ commonLiterals := by
  have himpl : (routerImpl (.ofProject d.info.name)).value.literals = [] := rfl
  have htoggle : toggleFunction.literals = [.char '/', .text "\x7bpath\x7d/"] := rfl
  have hredirect : redirectFunction.value.literals = [.text "\x7bpath\x7d?\x7bquery\x7d"] := rfl
  simp [File.literals, bootstrap, File.ofNoted, Item.literals, routerItem, endpointItem,
    middlewareFnItem, himpl, literals_routesFunction, literals_middlewaresFunction, htoggle,
    hredirect, commonLiterals]

end Service

/-- Every text and every character is laid out as one literal on one line that means just that. In
the text of a file such literals are found again, each up to its closing quote and no others; so the
text of a bootstrap holds each path of its endpoints as one literal and nothing of it as code. -/
theorem literals_read_back :
    (∀ (speak : Speaker) (level : ℕ) (s : String),
      Literal.ofText? ((Expr.text s).layout speak level) = some (.text s) ∧
        Literal.OneLine ((Expr.text s).layout speak level)) ∧
    (∀ (speak : Speaker) (level : ℕ) (c : Char),
      Literal.ofText? ((Expr.char c).layout speak level) = some (.char c) ∧
        Literal.OneLine ((Expr.char c).layout speak level)) ∧
    (∀ (f : File) (text : String), f.render = .ok text → literals? text = some f.literals) ∧
    ∀ (d : Descriptor),
      (∀ text, (Service.bootstrap d).render = .ok text → literals? text =
        some ((d.endpoints.map fun e => .text e.route.path) ++ Service.commonLiterals)) ∧
      (d.Reachable → Naming.isProjectName d.info.name = true →
        ∃ text, (Service.bootstrap d).render = .ok text) := by
  refine ⟨fun _ _ s => ⟨Literal.ofText?_quoted s, Literal.oneLine_quoted s⟩,
    fun _ _ c => ⟨Literal.ofText?_quotedChar c, Literal.oneLine_quotedChar c⟩,
    fun f text h => File.literals?_of_render h, fun d => ⟨fun text h => ?_, fun hd hname => ?_⟩⟩
  · rw [File.literals?_of_render h, Service.literals_bootstrap]
  · exact Service.bootstrap_renders hd.wellFormed hname

/-- A service with a path that tries to end its literal. -/
def trapdoor : Descriptor :=
  (Descriptor.base { name := "trapdoor" }).afterAll
    [.addRoute { path := "/\", exit(1), \"\\\n// '\u0085", handler := "open" }]

theorem trapdoor_literals_read_back :
    ∃ text, (Service.bootstrap trapdoor).render = .ok text ∧
      literals? text =
        some (.text "/\", exit(1), \"\\\n// '\u0085" :: Service.commonLiterals) := by
  have hreachable : trapdoor.Reachable := (Descriptor.Reachable.base _).afterAll _
  have hname : Naming.isProjectName trapdoor.info.name = true := by decide +kernel
  have hpaths : (trapdoor.endpoints.map fun e => Literal.text e.route.path) =
      [.text "/\", exit(1), \"\\\n// '\u0085"] := by decide +kernel
  obtain ⟨hread, hrenders⟩ := literals_read_back.2.2.2 trapdoor
  obtain ⟨text, htext⟩ := hrenders hreachable hname
  refine ⟨text, htext, ?_⟩
  rw [hread text htext, hpaths]
  rfl

end Scaffold
