import Scaffold.Proofs.DocumentedFiles
import Scaffold.Proofs.FreeTexts
import Scaffold.Proofs.Notes

/-!
Which carriage returns of a descriptor reach its documentation. A return between two things that are
shown on one line is no end of a line, and stays as it is. So a service can be documented by a line
with a return in it, and it is just where one of its texts or paths holds such a return.
-/

namespace Scaffold

open Source Text

/-- Whether a carriage return stands within a path that is quoted; the closing quote is behind all
of its last line. -/
def pathHoldsReturn (path : String) : Bool := returnsWithin (path.toList ++ ['`'])

def Info.holdsReturn (i : Info) : Bool :=
  Text.holdsReturn i.name || Text.holdsReturn i.summary || Text.holdsReturn i.description

def Route.holdsReturn (r : Route) : Bool := r.info.holdsReturn || pathHoldsReturn r.path

/-- The paths are quoted where they are not all paths. -/
def Middleware.holdsReturn (m : Middleware) : Bool :=
  m.info.holdsReturn || !m.appliesToAll && m.paths.any pathHoldsReturn

/-- Whether the documentation of the artifact quotes a text with a return within. -/
def Artifact.quotesReturn (d : Descriptor) : Artifact → Bool
  | stub =>
    d.info.holdsReturn || d.routes.any Route.holdsReturn || d.middlewares.any Middleware.holdsReturn
  | contract => d.routes.any Route.holdsReturn || d.middlewares.any Middleware.holdsReturn
  | _ => false

theorem returnsWithin_trim (s : String) :
    returnsWithin (trim s).toList = Text.holdsReturn s := by
  rw [trim, String.toList_ofList, returnsWithin_dropBlanksEnd]
  rfl

theorem returnsWithin_eq_false_of_unbroken {s : String} (h : Unbroken s) :
    returnsWithin s.toList = false :=
  returnsWithin_of_not_mem h

theorem returnsWithin_append_of_unbroken {s : String} (h : Unbroken s) (t : String) :
    returnsWithin (s ++ t).toList = returnsWithin t.toList := by
  rw [String.toList_append]
  exact returnsWithin_append_of_not_mem h _

theorem exists_lines_iff {s : String} {p : String → Prop} (h : ¬ p "") :
    (∃ line ∈ lines s, p line) ↔ ∃ line ∈ splitAt '\n' s, p line := by
  unfold lines
  dsimp only
  split
  · next hlast =>
    obtain ⟨front, hfront⟩ := List.getLast?_eq_some_iff.mp (beq_iff_eq.mp hlast)
    simp [hfront, h]
  · rfl

/-- A text that is cut into lines keeps its returns. -/
theorem anyReturn_lines (s : String) :
    AnyReturn ((lines s).map trimEnd) ↔ returnsWithin s.toList = true := by
  have htrim (line : String) : returnsWithin (trimEnd line).toList = returnsWithin line.toList := by
    rw [trimEnd, String.toList_ofList, returnsWithin_dropBlanksEnd]
  simp only [AnyReturn, List.mem_map, exists_exists_and_eq_and, htrim]
  rw [exists_lines_iff (by simp [returnsWithin]), returnsWithin_iff_exists_piece]
  simp [splitAt, splitWhere]

namespace Info

theorem returnsWithin_headline (i : Info) {fallback : String} (hfallback : Unbroken fallback) :
    returnsWithin (i.headline fallback).toList =
      (Text.holdsReturn i.name || Text.holdsReturn i.summary) := by
  have hname := returnsWithin_trim i.name
  have hsummary := returnsWithin_trim i.summary
  unfold headline
  dsimp only
  split
  · next hshown _ =>
    -- the name ends with a character that shows all returns of its last line
    have hend : trim i.name = trimEnd (String.ofList (i.name.toList.dropWhile isBlank)) := by
      simp [trim, trimEnd]
    obtain ⟨c, hlast, hc⟩ : EndsBare (trim i.name).toList := by
      rw [hend] at hshown ⊢
      exact endsBare_trimEnd hshown
    obtain ⟨front, hfront⟩ := List.getLast?_eq_some_iff.mp hlast
    have hlist : (trim i.name ++ ": " ++ trim i.summary).toList =
        front ++ c :: ':' :: ' ' :: (trim i.summary).toList := by
      simp [hfront]
    rw [hlist, returnsWithin_append_cons hc, ← hfront, hname,
      returnsWithin_cons_of_ne (by decide), returnsWithin_cons_of_ne (by decide), hsummary]
  · next hblank _ =>
    rw [String.isEmpty_iff.mp hblank] at hname
    rw [hsummary, ← hname]
    rfl
  · next _ hblank =>
    rw [String.isEmpty_iff.mp hblank] at hsummary
    rw [hname, ← hsummary, returnsWithin_eq_false_of_unbroken (by decide), Bool.or_false]
  · next hblank hblank' =>
    rw [String.isEmpty_iff.mp hblank] at hname
    rw [String.isEmpty_iff.mp hblank'] at hsummary
    rw [← hname, ← hsummary, returnsWithin_eq_false_of_unbroken hfallback]
    rfl

theorem anyReturn_documentation (i : Info) {fallback : String} (hfallback : Unbroken fallback) :
    AnyReturn (i.documentation fallback) ↔ i.holdsReturn = true := by
  have hdescription := returnsWithin_trim i.description
  rw [documentation, anyReturn_cons, returnsWithin_headline i hfallback, holdsReturn,
    ← hdescription, Bool.or_eq_true _ (returnsWithin _)]
  refine or_congr_right ?_
  split
  · next hblank =>
    rw [String.isEmpty_iff.mp hblank]
    simp [returnsWithin]
  · simp [anyReturn_lines, returnsWithin]

end Info

theorem unbroken_codeSpan {s : String} (h : Unbroken s) : Unbroken (codeSpan s) := by
  simp only [codeSpan, unbroken_append]
  exact ⟨⟨by decide, h⟩, by decide⟩

theorem returnsWithin_codeSpan (s t : String) :
    returnsWithin (codeSpan s ++ t).toList = (pathHoldsReturn s || returnsWithin t.toList) := by
  have hlist : (codeSpan s ++ t).toList = '`' :: (s.toList ++ '`' :: t.toList) := by
    simp [codeSpan]
  rw [hlist, returnsWithin_cons_of_ne (by decide), returnsWithin_append_cons (by decide)]
  rfl

theorem pathHoldsReturn_append {s : String} (h : Unbroken s) (path : String) :
    pathHoldsReturn (s ++ path) = pathHoldsReturn path := by
  rw [pathHoldsReturn, String.toList_append, List.append_assoc,
    returnsWithin_append_of_not_mem h]
  rfl

theorem unbroken_name (m : Method) : Unbroken m.name := by cases m <;> decide

namespace Route

variable {r : Route} {w : Wiring}

theorem returnsWithin_methodsNote (r : Route) :
    returnsWithin r.methodsNote.toList = pathHoldsReturn r.path := by
  unfold methodsNote
  split
  · rw [String.append_assoc, returnsWithin_append_of_unbroken (by decide), returnsWithin_codeSpan,
      returnsWithin_eq_false_of_unbroken (unbroken_ofList rfl), Bool.or_false]
  · have hmethods : Unbroken (String.intercalate ", " (r.methods.map (·.name)) ++ " ") :=
      unbroken_append.mpr ⟨unbroken_intercalate (by decide)
        (List.forall_mem_map.mpr fun m _ => unbroken_name m), by decide⟩
    rw [String.append_assoc, returnsWithin_append_of_unbroken (by decide), returnsWithin_codeSpan,
      returnsWithin_eq_false_of_unbroken (by decide), Bool.or_false,
      pathHoldsReturn_append hmethods]

theorem not_anyReturn_wiringNote (hw : ∀ handler, w = .shadowed handler → Unbroken handler) :
    ¬ AnyReturn (r.wiringNote? w).toList := by
  have hnote : ∀ note ∈ r.wiringNote? w, Unbroken note := by
    intro note hnote
    cases w with
    | shadowed handler =>
      obtain rfl : shadowNote handler = note := Option.some.inj hnote
      simp only [shadowNote, unbroken_append]
      exact ⟨⟨unbroken_ofList rfl, unbroken_codeSpan (hw handler rfl)⟩, unbroken_ofList rfl⟩
    | routed redirects =>
      cases redirects with
      | true =>
        obtain rfl : redirectNote = note := Option.some.inj hnote
        exact unbroken_ofList rfl
      | false =>
        change note ∈ if r.wantsRedirect then some ownVariantNote else none at hnote
        split at hnote
        · obtain rfl : ownVariantNote = note := Option.some.inj hnote
          exact unbroken_ofList rfl
        · cases hnote
  rintro ⟨note, hmem, hreturn⟩
  rw [returnsWithin_eq_false_of_unbroken (hnote note (Option.mem_toList.mp hmem))] at hreturn
  cases hreturn

theorem anyReturn_documentation (hhandler : Unbroken r.handler)
    (hw : ∀ handler, w = .shadowed handler → Unbroken handler) :
    AnyReturn (r.documentation w) ↔ r.holdsReturn = true := by
  simp only [documentation, anyReturn_append, anyReturn_cons, anyReturn_nil,
    r.info.anyReturn_documentation hhandler, returnsWithin_methodsNote,
    not_anyReturn_wiringNote hw, or_false, holdsReturn, Bool.or_eq_true]
  simp [returnsWithin]

end Route

namespace Middleware

theorem returnsWithin_scopes (paths : List String) {behind : String} (h : Unbroken behind) :
    returnsWithin (String.intercalate ", " (paths.map codeSpan) ++ behind).toList =
      paths.any pathHoldsReturn := by
  induction paths with
  | nil => simpa using returnsWithin_eq_false_of_unbroken h
  | cons path paths ih =>
    cases paths with
    | nil =>
      rw [List.map_singleton, String.intercalate_singleton, returnsWithin_codeSpan,
        returnsWithin_eq_false_of_unbroken h]
      simp
    | cons other paths =>
      rw [List.map_cons, List.map_cons, String.intercalate_cons_cons, String.append_assoc,
        String.append_assoc, returnsWithin_codeSpan, returnsWithin_append_of_unbroken (by decide),
        ← List.map_cons, ih]
      rfl

theorem unbroken_toString (n : Int) : Unbroken (toString n) := by
  have hdigits : '\r' ∉ Number.decimal n.natAbs := fun hmem =>
    absurd (Number.isDigit_of_mem_decimal hmem) (by decide)
  rw [Unbroken, Number.toList_toString]
  split
  · exact List.not_mem_cons_of_ne_of_not_mem (by decide) hdigits
  · exact hdigits

theorem returnsWithin_scopeNote (m : Middleware) :
    returnsWithin m.scopeNote.toList = (!m.appliesToAll && m.paths.any pathHoldsReturn) := by
  have hpriority : Unbroken ("Priority " ++ toString m.priority.toInt ++ ". ") :=
    unbroken_append.mpr ⟨unbroken_append.mpr ⟨by decide, unbroken_toString _⟩, by decide⟩
  unfold scopeNote
  dsimp only
  split
  · next hall =>
    rw [returnsWithin_append_of_unbroken hpriority,
      returnsWithin_eq_false_of_unbroken (unbroken_ofList rfl), hall]
    rfl
  · next hall =>
    rw [String.append_assoc, String.append_assoc, returnsWithin_append_of_unbroken hpriority,
      returnsWithin_append_of_unbroken (by decide), returnsWithin_scopes _ (unbroken_ofList rfl)]
    simp [hall]

theorem anyReturn_documentation {m : Middleware} (hhandler : Unbroken m.handler) :
    AnyReturn m.documentation ↔ m.holdsReturn = true := by
  simp only [documentation, anyReturn_append, anyReturn_cons, anyReturn_nil,
    m.info.anyReturn_documentation hhandler, returnsWithin_scopeNote, or_false, holdsReturn,
    Bool.or_eq_true]
  simp [returnsWithin]

end Middleware

theorem unbroken_identifier {name : String} (h : Naming.isIdentifier name = true) :
    Unbroken name := fun hmem =>
  absurd (Naming.inSegment_of_isIdentifier h hmem) (by decide)

theorem unbroken_of_isHandlerName {handler : String} (h : Naming.IsHandlerName handler) :
    Unbroken handler := fun hmem =>
  (h.2.1 _ hmem).elim (fun hc => absurd hc (by decide)) (by decide)

theorem unbroken_of_isProjectName {name : String} (h : Naming.IsProjectName name) :
    Unbroken name := fun hmem =>
  (h.chars _ hmem).elim (fun hc => absurd hc (by decide)) (by decide)

theorem not_anyReturn {entries : List String} (h : ∀ entry ∈ entries, Unbroken entry) :
    ¬ AnyReturn entries := by
  rintro ⟨entry, hentry, hreturn⟩
  rw [returnsWithin_eq_false_of_unbroken (h entry hentry)] at hreturn
  cases hreturn

namespace Descriptor

variable {d : Descriptor}

/-- A route is shadowed by the handler of another. -/
theorem exists_route_of_shadowed {r : Route} {handler : String}
    (h : (r, Wiring.shadowed handler) ∈ d.wirings) : ∃ s ∈ d.routes, s.handler = handler := by
  obtain ⟨i, hi⟩ := List.mem_iff_getElem?.mp h
  rw [getElem?_wirings, Option.map_eq_some_iff] at hi
  obtain ⟨s, -, hs⟩ := hi
  obtain ⟨rfl, hwiring⟩ := Prod.mk.inj hs
  obtain ⟨j, t, hfallback, hhandler⟩ :=
    isFallback_of_shadow? (Service.wiringOf_eq_shadowed_iff.mp hwiring)
  exact ⟨t, List.mem_of_getElem? hfallback.getElem?_eq, hhandler⟩

namespace WellFormed

theorem unbroken_route (h : d.WellFormed) {r : Route} (hr : r ∈ d.routes) : Unbroken r.handler :=
  unbroken_of_isHandlerName (h.routes_sound r hr).handler_name

theorem exists_wiring_iff (h : d.WellFormed) :
    (∃ p ∈ d.wirings, AnyReturn (p.1.documentation p.2)) ↔
      d.routes.any Route.holdsReturn = true := by
  have hdoc (r : Route) (w : Wiring) (hp : (r, w) ∈ d.wirings) :
      AnyReturn (r.documentation w) ↔ r.holdsReturn = true := by
    refine Route.anyReturn_documentation (h.unbroken_route (fst_mem_routes hp)) ?_
    rintro handler rfl
    obtain ⟨s, hs, rfl⟩ := exists_route_of_shadowed hp
    exact h.unbroken_route hs
  rw [← d.map_fst_wirings, List.any_map, List.any_eq_true]
  exact exists_congr fun p => and_congr_right (hdoc p.1 p.2)

theorem exists_middleware_iff (h : d.WellFormed) :
    (∃ m ∈ d.middlewares, AnyReturn m.documentation) ↔
      d.middlewares.any Middleware.holdsReturn = true := by
  rw [List.any_eq_true]
  exact exists_congr fun m => and_congr_right fun hm =>
    Middleware.anyReturn_documentation (unbroken_of_isHandlerName (h.middleware_names m hm))

end WellFormed

end Descriptor

namespace Service

open Vocabulary

variable {d : Descriptor}

theorem docs_stub (d : Descriptor) :
    (stub d).docs = d.info.documentation d.info.name ++
      ((serverItem (.ofProject d.info.name)).docs ++
        (d.wirings.flatMap (fun p => p.1.documentation p.2) ++
          d.middlewares.flatMap Middleware.documentation)) := by
  have hmodules : generatedModules.docs = [] := rfl
  simp only [File.docs, stub, File.ofNoted, capabilityImpl, Noted.value_bind, Noted.value_pure,
    Noted.value_each, List.map_cons, List.map_nil, List.flatMap_cons, List.flatMap_nil, hmodules,
    List.nil_append, List.append_nil, Item.docs, List.flatMap_map]
  rfl

theorem anyReturn_stub (h : d.WellFormed) (hname : Naming.isProjectName d.info.name = true) :
    AnyReturn (stub d).docs ↔ Artifact.stub.quotesReturn d = true := by
  have hn := Names.legal_ofProject hname
  have hproject := unbroken_of_isProjectName ((Naming.isProjectName_iff _).mp hname)
  have hserver : ¬ AnyReturn (serverItem (Names.ofProject d.info.name)).docs := by
    refine not_anyReturn ?_
    simp only [serverItem, Item.docs, List.forall_mem_cons, unbroken_append]
    exact ⟨⟨⟨⟨unbroken_ofList rfl, unbroken_ofList rfl⟩, unbroken_identifier hn.service⟩,
      unbroken_ofList rfl⟩, unbroken_ofList rfl, unbroken_ofList rfl, unbroken_ofList rfl,
      List.forall_mem_nil _⟩
  rw [docs_stub]
  simp only [anyReturn_append, anyReturn_flatMap, d.info.anyReturn_documentation hproject, hserver,
    false_or, h.exists_wiring_iff, h.exists_middleware_iff, Artifact.quotesReturn, Bool.or_eq_true,
    or_assoc]

theorem not_anyReturn_regeneratedDoc {what : String} (hwhat : Unbroken what)
    (hname : Naming.isProjectName d.info.name = true) :
    ¬ AnyReturn (regeneratedDoc what (.ofProject d.info.name)) := by
  have hproject := unbroken_of_isProjectName ((Naming.isProjectName_iff _).mp hname)
  refine not_anyReturn ?_
  simp only [regeneratedDoc, List.forall_mem_cons, unbroken_append]
  exact ⟨⟨⟨⟨hwhat, by decide⟩, unbroken_codeSpan hproject⟩, by decide⟩, by decide,
    unbroken_ofList rfl, unbroken_ofList rfl, List.forall_mem_nil _⟩

theorem anyReturn_contract (h : d.WellFormed) (hname : Naming.isProjectName d.info.name = true) :
    AnyReturn (contract d).docs ↔ Artifact.contract.quotesReturn d = true := by
  have hn := Names.legal_ofProject hname
  have hdoc : ¬ AnyReturn (contract d).doc :=
    not_anyReturn_regeneratedDoc (unbroken_ofList rfl) hname
  have hitem : ¬ AnyReturn requestHandlerItem.value.docs := by
    refine not_anyReturn ?_
    simp only [requestHandlerItem, Noted.value_bind, Noted.value_pure, Item.docs,
      List.forall_mem_cons]
    exact ⟨unbroken_ofList rfl, unbroken_ofList rfl, unbroken_ofList rfl, unbroken_ofList rfl,
      List.forall_mem_nil _⟩
  have htrait : ¬ AnyReturn (serviceTrait (.ofProject d.info.name)).docs := by
    refine not_anyReturn ?_
    simp only [serviceTrait, Item.docs, List.flatMap_nil, List.append_nil, List.forall_mem_cons,
      unbroken_append]
    exact ⟨⟨unbroken_identifier hn.service, unbroken_ofList rfl⟩, unbroken_ofList rfl,
      unbroken_ofList rfl, List.forall_mem_nil _⟩
  have himpl : ¬ AnyReturn (serviceImpl (.ofProject d.info.name)).docs :=
    not_anyReturn (List.forall_mem_nil _)
  have hhandlers : AnyReturn (handlerTrait d (.ofProject d.info.name)).docs ↔
      ∃ p ∈ d.wirings, AnyReturn (p.1.documentation p.2) := by
    simp only [handlerTrait, Item.docs, anyReturn_append, List.flatMap_map, anyReturn_flatMap]
    refine or_iff_right (not_anyReturn ?_)
    simp only [List.forall_mem_cons, unbroken_append]
    exact ⟨⟨unbroken_identifier hn.handler, unbroken_ofList rfl⟩, unbroken_ofList rfl,
      List.forall_mem_nil _⟩
  have hmiddlewares : AnyReturn (middlewareTrait d (.ofProject d.info.name)).docs ↔
      ∃ m ∈ d.middlewares, AnyReturn m.documentation := by
    simp only [middlewareTrait, Item.docs, anyReturn_append, List.flatMap_map, anyReturn_flatMap]
    refine or_iff_right (not_anyReturn ?_)
    simp only [List.forall_mem_cons, unbroken_append]
    exact ⟨⟨unbroken_identifier hn.middleware, unbroken_ofList rfl⟩, unbroken_ofList rfl,
      List.forall_mem_nil _⟩
  have hitems : (contract d).items.flatMap Item.docs = requestHandlerItem.value.docs ++
      ((serviceTrait (.ofProject d.info.name)).docs ++
        ((serviceImpl (.ofProject d.info.name)).docs ++
          ((handlerTrait d (.ofProject d.info.name)).docs ++
            (middlewareTrait d (.ofProject d.info.name)).docs))) := by
    simp only [contract, File.ofNoted, Noted.value_pure, List.map_cons, List.map_nil,
      List.flatMap_cons, List.flatMap_nil, List.append_nil]
  rw [File.docs, hitems]
  simp only [anyReturn_append, hdoc, hitem, htrait, himpl, hhandlers, hmiddlewares,
    h.exists_wiring_iff, h.exists_middleware_iff, false_or, Artifact.quotesReturn,
    Bool.or_eq_true]

theorem not_anyReturn_bootstrap (hname : Naming.isProjectName d.info.name = true) :
    ¬ AnyReturn (bootstrap d).docs := by
  have hdoc : ¬ AnyReturn (bootstrap d).doc :=
    not_anyReturn_regeneratedDoc (unbroken_ofList rfl) hname
  have hitems : ¬ AnyReturn ((bootstrap d).items.flatMap Item.docs) := by
    refine not_anyReturn ?_
    simp only [bootstrap, File.ofNoted, Noted.value_bind, Noted.value_pure, Noted.value_map,
      routerItem, endpointItem, middlewareFnItem, routerImpl, newFunction, serviceImplFunction,
      intoRouterFunction, routesFunction, middlewaresFunction, toggleFunction, redirectFunction,
      Item.docs, List.map_cons, List.map_nil, List.flatMap_cons, List.flatMap_nil, List.cons_append,
      List.nil_append, List.forall_mem_cons, unbroken_append]
    and_intros
    all_goals first | exact unbroken_ofList rfl | exact List.forall_mem_nil _
  rw [File.docs, anyReturn_append, not_or]
  exact ⟨hdoc, hitems⟩

theorem not_anyReturn_entrypoint (hname : Naming.isProjectName d.info.name = true) :
    ¬ AnyReturn (entrypoint d).docs := by
  have hproject := unbroken_of_isProjectName ((Naming.isProjectName_iff _).mp hname)
  have hdocs : (entrypoint d).docs =
      ["Process entrypoint of " ++ codeSpan d.info.name ++ ".",
       "Address the service listens on."] := rfl
  refine not_anyReturn ?_
  simp only [hdocs, List.forall_mem_cons, unbroken_append]
  exact ⟨⟨⟨unbroken_ofList rfl, unbroken_codeSpan hproject⟩, by decide⟩, unbroken_ofList rfl,
    List.forall_mem_nil _⟩

end Service

/-- The documentation comments of a file hold a carriage return just where a text that the file
quotes has one within. -/
theorem showsReturn_iff_quotesReturn {d : Descriptor} (h : d.Reachable)
    (hname : Naming.isProjectName d.info.name = true) {a : Artifact} (ha : a.isSource = true) :
    ∃ text, a.render d = .ok text ∧
      ((∃ line ∈ docComments text, '\r' ∈ line.toList) ↔ a.quotesReturn d = true) := by
  have hwf := h.wellFormed
  obtain ⟨text, htext⟩ := a.renders hwf hname
  refine ⟨text, htext, ?_⟩
  cases a with
  | stub =>
    have hdocs := File.showsReturn_iff_of_render (f := Service.stub d) htext
    exact hdocs.trans (Service.anyReturn_stub hwf hname)
  | contract =>
    have hdocs := File.showsReturn_iff_of_render (f := Service.contract d) htext
    exact hdocs.trans (Service.anyReturn_contract hwf hname)
  | bootstrap =>
    have hdocs := File.showsReturn_iff_of_render (f := Service.bootstrap d) htext
    exact hdocs.trans (iff_of_false (Service.not_anyReturn_bootstrap hname) Bool.false_ne_true)
  | entrypoint =>
    have hdocs := File.showsReturn_iff_of_render (f := Service.entrypoint d) htext
    exact hdocs.trans (iff_of_false (Service.not_anyReturn_entrypoint hname) Bool.false_ne_true)
  | manifest => cases ha

/-- The return in front of a line feed belongs to the end of the line and is gone; the return at the
end of the path has the closing quote behind it. -/
theorem path_alone_shows_return :
    let d := (Descriptor.base { name := "fleet", description := "first\r\nsecond\r" }).afterAll
      [.addRoute { path := "/ships\r", handler := "List" }]
    d.Reachable ∧ Naming.isProjectName d.info.name = true ∧ d.info.holdsReturn = false ∧
      ∃ text, Artifact.contract.render d = .ok text ∧
        ∃ line ∈ docComments text, '\r' ∈ line.toList := by
  intro d
  have hreachable : d.Reachable := (Descriptor.Reachable.base _).afterAll _
  have hname : Naming.isProjectName d.info.name = true := by decide
  obtain ⟨text, htext, hiff⟩ := showsReturn_iff_quotesReturn hreachable hname (a := .contract) rfl
  exact ⟨hreachable, hname, by decide, text, htext, hiff.mpr (by decide +kernel)⟩

/-- A service with a valid name and a return that is no end of a line, which its stub shows. -/
theorem lone_return_is_documented :
    let d := Descriptor.base { name := "fleet", description := "first\rsecond" }
    d.Reachable ∧ Naming.isProjectName d.info.name = true ∧
      ∃ text, Artifact.stub.render d = .ok text ∧
        ∃ line ∈ docComments text, '\r' ∈ line.toList := by
  intro d
  have hreachable : d.Reachable := .base _
  have hname : Naming.isProjectName d.info.name = true := by decide
  have hquotes : Artifact.stub.quotesReturn d = true := by decide
  obtain ⟨text, htext⟩ := Artifact.stub.renders hreachable.wellFormed hname
  have hdocs := File.showsReturn_iff_of_render (f := Service.stub d) htext
  exact ⟨hreachable, hname, text, htext,
    hdocs.mpr ((Service.anyReturn_stub hreachable.wellFormed hname).mpr hquotes)⟩

end Scaffold
