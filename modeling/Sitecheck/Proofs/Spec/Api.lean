import Sitecheck.Spec.Api
import Sitecheck.Proofs.Except
import Sitecheck.Proofs.Spec.Tree

/-!
# Well-formed tests of interfaces

The code of a test declares a name twice exactly if it checks two members of the answer,
since each check reads the answer anew; and two options of its request stand side by side
without a comma exactly if the request has both a body and headers.
-/

namespace Sitecheck.Spec.Api

open Script

variable {members : List (String × Json)} {row : List Tree} {outer : List (Char × List Tree)}
  {rest : List Char}
variable {name text first body headers : String} {P Q : List Tree → Prop}
  {lines others : List String} {value front back : List Tree}

/-! ## What is asked of the code -/

/-- The names that are declared in a row, but not in its groups. -/
def declared : List Tree → List String
  | .word keyword :: .word name :: rest =>
    if keyword = "const" then name :: declared rest else declared (.word name :: rest)
  | _ :: rest => declared rest
  | [] => []

/-- The block or object that is the last of some arguments. -/
def lastBlock? (arguments : List Tree) : Option (List Tree) :=
  match arguments.getLast? with
  | some (.group '{' inner) => some inner
  | _ => none

def functionBody? : List Tree → Option (List Tree)
  | [.word "test", .group '(' arguments, .mark ';'] => lastBlock? arguments
  | _ => none

/-- The options of the first request in a row. -/
def requestOptions? : List Tree → Option (List Tree)
  | .word "request" :: .mark '.' :: .word _ :: .group '(' arguments :: _ => lastBlock? arguments
  | _ :: rest => requestOptions? rest
  | [] => none

/-- Every property but the first has a comma before it. -/
def Separated (options : List Tree) : Prop :=
  ∀ before name after, options = before ++ .word name :: .mark ':' :: after →
    before = [] ∨ before.getLast? = some (.mark ',')

/-! ## What a test asks for -/

def given (members : List (String × Json)) (key : String) (default : Json) : Json :=
  (Fields.get? key members).getD default

def methodOf (members : List (String × Json)) : String :=
  match given members "method" (.str "get") with
  | .str text => Text.lower text
  | _ => ""

def endpointOf (members : List (String × Json)) : String := (given members "endpoint" (.str "/")).display

def callOf (members : List (String × Json)) : String :=
  Text.upper (methodOf members) ++ " " ++ endpointOf members

def nameOf (members : List (String × Json)) : String := (given members "name" (.str (callOf members))).display

def descriptionOf (members : List (String × Json)) : String :=
  (given members "description" (.str ("Tests " ++ callOf members))).display

def checks : Json → Nat
  | .obj fields => fields.length
  | .str "array" => 1
  | _ => 0

/-- The texts of a test stay in the places that they are put in. -/
structure Harmless (members : List (String × Json)) : Prop where
  method : ∃ text, given members "method" (.str "get") = .str text
  word : methodOf members ≠ "" ∧ ∀ c ∈ (methodOf members).toList, isWordChar c = true
  endpoint : fits (endpointOf members).toList = true
  name : fits (nameOf members).toList = true
  description : isRemark (descriptionOf members).toList = true
  bodyType : ∃ text, given members "body_type" (.str "json") = .str text
  body : (given members "body" .null).Regular
  headers : (given members "headers" .null).isTruthy = true →
    ∃ fields, given members "headers" .null = .obj fields ∧
      ∀ field ∈ fields, fits field.1.toList = true ∧ fits field.2.display.toList = true
  status : ∀ c ∈ (given members "expected_status" (.int 200)).display.toList, isLoose c = true
  expected : ∀ fields, given members "expected_body" .null = .obj fields →
    ∀ field ∈ fields, fits field.1.toList = true
  limit : isRemark (given members "max_response_time_ms" .null).display.toList = true

/-! ## The frame of a test -/

def functionRow : List Tree :=
  [.mark '>', .mark '=', .group '(' [.group '{' [.word "request"]], .word "async", .mark ',', .literal]

def requestRow (method : String) : List Tree :=
  [.word method, .mark '.', .word "request", .word "await", .mark '=', .word "response", .word "const"]

theorem scan_title (h : fits name.toList = true) :
    scan ⟨.code, row, outer⟩ ("  test('".toList ++ (name.toList ++
        ("', async (\x7b request \x7d) => \x7b".toList ++ rest))) =
      scan ⟨.code, [], ('{', functionRow) :: ('(', .word "test" :: row) :: outer⟩ rest := by
  have hopen (rest : List Char) : scan ⟨.code, row, outer⟩ ("  test('".toList ++ rest) =
      scan ⟨.quoted '\'', [], ('(', .word "test" :: row) :: outer⟩ rest := rfl
  have hquote : "', async (\x7b request \x7d) => \x7b".toList ++ rest =
      '\'' :: (", async (\x7b request \x7d) => \x7b".toList ++ rest) := rfl
  rw [hopen, hquote, scan_fits h]
  rfl

theorem scan_description (h : isRemark text.toList = true) :
    scan ⟨.code, row, outer⟩ ("\n".toList ++ ("    // ".toList ++ (text.toList ++
        ("\n".toList ++ rest)))) = scan ⟨.code, row, outer⟩ rest :=
  scan_remark h

theorem scan_request {method endpoint : String} (hne : method ≠ "")
    (hmethod : ∀ c ∈ method.toList, isWordChar c = true) (hendpoint : fits endpoint.toList = true) :
    scan ⟨.code, row, outer⟩ ("    const response = await request.".toList ++ (method.toList ++
        ("('".toList ++ (endpoint.toList ++ ("', \x7b".toList ++ rest))))) =
      scan ⟨.code, [], ('{', [.mark ',', .literal]) :: ('(', requestRow method ++ row) :: outer⟩ rest := by
  have hstart (rest : List Char) :
      scan ⟨.code, row, outer⟩ ("    const response = await request.".toList ++ rest) =
        scan ⟨.code, [.mark '.', .word "request", .word "await", .mark '=', .word "response",
          .word "const"] ++ row, outer⟩ rest := rfl
  have hopen (row : List Tree) (rest : List Char) : scan ⟨.code, row, outer⟩ ("('".toList ++ rest) =
      scan ⟨.quoted '\'', [], ('(', row) :: outer⟩ rest := rfl
  have hquote : "', \x7b".toList ++ rest = '\'' :: (", \x7b".toList ++ rest) := rfl
  have hdelimited (rest : List Char) : Delimited ("('".toList ++ rest) := delimited_cons (by decide) _
  rw [hstart, scan_name hne hmethod (hdelimited _), hopen, hquote, scan_fits hendpoint]
  rfl

/-! ## Lines -/

/-- A line of code adds some trees. -/
def Adds (P : List Tree → Prop) (line : String) : Prop :=
  ∀ row outer rest, ∃ trees, P trees ∧
    scan ⟨.code, row, outer⟩ (line.toList ++ ("\n".toList ++ rest)) =
      scan ⟨.code, trees.reverse ++ row, outer⟩ rest

theorem Adds.append {R : List Tree → Prop} {second : String} (hfirst : Adds P first)
    (hsecond : Adds Q second) (h : ∀ front back, P front → Q back → R (front ++ back)) :
    Adds R (first ++ "\n" ++ second) := by
  intro row outer rest
  obtain ⟨front, hfront, hscan⟩ := hfirst row outer (second.toList ++ ("\n".toList ++ rest))
  obtain ⟨back, hback, hend⟩ := hsecond (front.reverse ++ row) outer rest
  refine ⟨front ++ back, h front back hfront hback, ?_⟩
  simp only [String.toList_append, List.append_assoc, List.reverse_append]
  rw [hscan, hend]

theorem adds_join_any (h : ∀ line ∈ lines, Adds Any line) : Adds Any (Text.join "\n" lines) := by
  induction lines with
  | nil => exact fun _ _ _ => ⟨[], trivial, rfl⟩
  | cons line lines ih =>
    rw [List.forall_mem_cons] at h
    cases lines with
    | nil => rw [Text.join_singleton]; exact h.1
    | cons =>
      rw [Text.join_cons_cons]
      exact h.1.append (ih h.2) fun _ _ _ _ => trivial

/-! ## The options of the request -/

/-- The trees of an option, if there is one. -/
def IsOption (present : Bool) (trees : List Tree) : Prop :=
  present = false ∧ trees = [] ∨
    present = true ∧ ∃ name value, Quiet value ∧ trees = .word name :: .mark ':' :: value

theorem adds_nothing : Adds (IsOption false) "" := fun _ _ _ => ⟨[], .inl ⟨rfl, rfl⟩, rfl⟩

theorem bodyMember_str (kind : String) : ∃ name, bodyMember (.str kind) = .ok name ∧
    (name = "form" ∨ name = "multipart" ∨ name = "data") := by
  unfold bodyMember
  split
  · exact ⟨_, rfl, .inl rfl⟩
  · exact ⟨_, rfl, .inr (.inl rfl)⟩
  · next heq => cases heq
  · next heq => cases heq
  · exact ⟨_, rfl, .inr (.inr rfl)⟩

theorem adds_body (hname : name = "form" ∨ name = "multipart" ∨ name = "data") {value : Json}
    (h : value.Regular) :
    Adds (IsOption true) ("      " ++ name ++ ": " ++ value.write (.block 8)) := by
  intro row outer rest
  obtain ⟨trees, hquiet, hscan⟩ := leaves_writeValue h (.block 8) 0 (.mark ':' :: .word name :: row) outer
    ("\n".toList ++ rest) (delimited_cons (by decide) _)
  have hstart (text : List Char) :
      scan ⟨.code, row, outer⟩ ("      ".toList ++ (name.toList ++ (": ".toList ++ text))) =
        scan ⟨.code, .mark ':' :: .word name :: row, outer⟩ text := by
    rcases hname with rfl | rfl | rfl <;> rfl
  refine ⟨.word name :: .mark ':' :: trees.reverse, .inr ⟨rfl, name, trees.reverse, ?_, rfl⟩, ?_⟩
  · simpa [Quiet] using hquiet
  · simp only [String.toList_append, List.append_assoc, Json.write, String.toList_ofList]
    have hrow : (.word name :: .mark ':' :: trees.reverse).reverse ++ row =
        trees ++ .mark ':' :: .word name :: row := by simp
    rw [hstart, ← writeValue_append h, List.nil_append, hscan, hrow]
    rfl

theorem exists_bodyCode (h : Harmless members) : ∃ text, bodyCode (.obj members) = .ok text ∧
    Adds (IsOption (given members "body" .null).isTruthy) text := by
  obtain ⟨kind, hkind⟩ := h.bodyType
  obtain ⟨name, hmember, hname⟩ := bodyMember_str kind
  have hcode : bodyCode (.obj members) =
      if (given members "body" .null).isTruthy then
        .ok ("      " ++ name ++ ": " ++ (given members "body" .null).write (.block 8))
      else .ok "" := by
    unfold given at hkind
    simp only [bodyCode, Json.get_obj, Json.getD_obj, hkind, hmember, bind, Except.bind]
    rfl
  cases hbody : (given members "body" .null).isTruthy with
  | true => exact ⟨_, by rw [hcode, hbody]; rfl, adds_body hname h.body⟩
  | false => exact ⟨_, by rw [hcode, hbody]; rfl, adds_nothing⟩

theorem adds_header {value : String} (hname : fits name.toList = true)
    (hvalue : fits value.toList = true) :
    Adds Any ("        '" ++ name ++ "': '" ++ value ++ "',") := by
  intro row outer rest
  refine ⟨[.literal, .mark ':', .literal, .mark ','], trivial, ?_⟩
  have hopen (row : List Tree) (text : List Char) : scan ⟨.code, row, outer⟩ ("        '".toList ++ text) =
      scan ⟨.quoted '\'', row, outer⟩ text := rfl
  have hmiddle (text : List Char) : "': '".toList ++ text = '\'' :: (": '".toList ++ text) := rfl
  have hcolon (row : List Tree) (text : List Char) : scan ⟨.code, row, outer⟩ (": '".toList ++ text) =
      scan ⟨.quoted '\'', .mark ':' :: row, outer⟩ text := rfl
  have hend (text : List Char) : "',".toList ++ text = '\'' :: (",".toList ++ text) := rfl
  simp only [String.toList_append, List.append_assoc]
  rw [hopen, hmiddle, scan_fits hname, hcolon, hend, scan_fits hvalue]
  rfl

theorem adds_headers (hfirst : Adds Any first) (hothers : ∀ line ∈ others, Adds Any line) :
    Adds (IsOption true)
      (Text.join "\n" ["      headers: \x7b", first, Text.join "\n" others, "      \x7d"]) := by
  intro row outer rest
  have hlines : Adds Any (first ++ "\n" ++ Text.join "\n" others) :=
    hfirst.append (adds_join_any hothers) fun _ _ _ _ => trivial
  obtain ⟨trees, -, hscan⟩ := hlines [] (('{', .mark ':' :: .word "headers" :: row) :: outer)
    ("      \x7d".toList ++ ("\n".toList ++ rest))
  refine ⟨[.word "headers", .mark ':', .group '{' trees], ?_, ?_⟩
  · exact .inr ⟨rfl, "headers", [.group '{' trees], by simp [Quiet], rfl⟩
  · have hopen (text : List Char) :
        scan ⟨.code, row, outer⟩ ("      headers: \x7b".toList ++ ("\n".toList ++ text)) =
          scan ⟨.code, [], ('{', .mark ':' :: .word "headers" :: row) :: outer⟩ text := rfl
    have hclose (inner row : List Tree) :
        scan ⟨.code, inner, ('{', row) :: outer⟩ ("      \x7d".toList ++ ("\n".toList ++ rest)) =
          scan ⟨.code, .group '{' inner.reverse :: row, outer⟩ rest := rfl
    simp only [Text.join_cons_cons, Text.join_singleton, String.toList_append, List.append_assoc] at hscan ⊢
    rw [hopen, hscan, hclose, List.append_nil, List.reverse_reverse]
    rfl

theorem exists_headerCode (h : Harmless members) : ∃ text, headerCode (.obj members) = .ok text ∧
    Adds (IsOption (given members "headers" .null).isTruthy) text := by
  cases hheaders : (given members "headers" .null).isTruthy with
  | false =>
    refine ⟨"", ?_, adds_nothing⟩
    unfold given at hheaders
    simp only [headerCode, Json.get_obj, bind, Except.bind, hheaders]
    rfl
  | true =>
    obtain ⟨fields, hfields, hfit⟩ := h.headers hheaders
    have htype : fits ((Fields.get? "Content-Type" fields).getD
        (.str "application/json")).display.toList = true := by
      cases hget : Fields.get? "Content-Type" fields with
      | none => decide
      | some => exact (hfit _ (Fields.mem_of_get? hget)).2
    have hfirst := adds_header (show fits "Content-Type".toList = true by decide) htype
    have hcode : ∃ others, headerCode (.obj members) = .ok (Text.join "\n" ["      headers: \x7b",
        "        'Content-Type': '" ++ ((Fields.get? "Content-Type" fields).getD
          (.str "application/json")).display ++ "',", Text.join "\n" others, "      \x7d"]) ∧
        ∀ line ∈ others, Adds Any line := by
      rw [hfields] at hheaders
      unfold given at hfields
      simp only [headerCode, Json.get_obj, bind, Except.bind, hheaders, hfields, if_true]
      refine ⟨_, rfl, ?_⟩
      simp only [List.forall_mem_map]
      exact fun field hfield => adds_header (hfit field (List.mem_of_mem_filter hfield)).1
        (hfit field (List.mem_of_mem_filter hfield)).2
    obtain ⟨others, hcode, hothers⟩ := hcode
    exact ⟨_, hcode, adds_headers hfirst hothers⟩

/-! ## Separated options -/

theorem not_separated {other : String} {rest : List Tree} (h : Quiet value) :
    ¬ Separated (.word name :: .mark ':' :: value ++ .word other :: .mark ':' :: rest) := by
  intro hsep
  have hlast := hsep (.word name :: .mark ':' :: value) other rest rfl
  simp only [reduceCtorEq, false_or] at hlast
  cases value using List.reverseRecOn with
  | nil => cases hlast
  | append_singleton =>
    simp only [← List.cons_append, List.getLast?_concat, Option.some.injEq] at hlast
    exact h.2 (by simp [hlast])

theorem separated_one (h : Quiet value) : Separated (.word name :: .mark ':' :: value) := by
  intro before other after heq
  rcases before with _ | ⟨first, _ | ⟨second, before⟩⟩
  · exact .inl rfl
  · cases heq
  · simp only [List.cons_append, List.cons.injEq] at heq
    exact absurd (heq.2.2 ▸ by simp : Tree.mark ':' ∈ value) h.1

theorem separated_iff {first second : Bool} (hfront : IsOption first front)
    (hback : IsOption second back) :
    Separated (front ++ back) ↔ ¬ (first = true ∧ second = true) := by
  rcases hfront with ⟨rfl, rfl⟩ | ⟨rfl, name, value, hvalue, rfl⟩ <;>
    rcases hback with ⟨rfl, rfl⟩ | ⟨rfl, other, tail, htail, rfl⟩
  · simp [Separated]
  · simpa using separated_one htail
  · simpa using separated_one hvalue
  · simpa using not_separated hvalue

/-! ## What is checked -/

/-- The trees declare some names, whatever follows. -/
def Declares (names : List String) (trees : List Tree) : Prop :=
  ∀ more, declared (trees ++ more) = names ++ declared more

theorem Declares.append {names : List String} (hfront : Declares names front)
    (hback : Declares others back) :
    Declares (names ++ others) (front ++ back) := by
  intro more
  rw [List.append_assoc, hfront, hback, List.append_assoc]

def statusCall : List Tree :=
  [.word "toBe", .mark '.', .group '(' [.word "response", .mark '.', .word "status", .group '(' []],
    .word "expect"]

theorem adds_toBe (h : ∀ c ∈ text.toList, isLoose c = true) :
    Adds (Declares []) ("    expect(response.status()).toBe(" ++ text ++ ");") := by
  intro row outer rest
  have hopen (text : List Char) :
      scan ⟨.code, row, outer⟩ ("    expect(response.status()).toBe(".toList ++ text) =
        scan ⟨.code, [], ('(', statusCall ++ row) :: outer⟩ text := rfl
  have hdelimited : Delimited (");".toList ++ ("\n".toList ++ rest)) := delimited_cons (by decide) _
  have hargument : ∃ trees, Quiet trees ∧
      scan ⟨.code, [], ('(', statusCall ++ row) :: outer⟩
          (text.toList ++ (");".toList ++ ("\n".toList ++ rest))) =
        scan ⟨.code, trees ++ [], ('(', statusCall ++ row) :: outer⟩
          (");".toList ++ ("\n".toList ++ rest)) := scan_loose h hdelimited (.inl rfl)
  obtain ⟨trees, -, hscan⟩ := hargument
  refine ⟨statusCall.reverse ++ [.group '(' trees.reverse, .mark ';'], fun more => rfl, ?_⟩
  simp only [String.toList_append, List.append_assoc]
  rw [hopen, hscan, List.append_nil]
  rfl

theorem adds_statusCode {status : Json} (h : ∀ c ∈ status.display.toList, isLoose c = true) :
    Adds (Declares []) (statusCode status) := by
  have hok : Adds (Declares []) "    expect(response.ok()).toBeTruthy();" := fun row outer rest =>
    ⟨[.word "expect", .group '(' [.word "response", .mark '.', .word "ok", .group '(' []],
      .mark '.', .word "toBeTruthy", .group '(' [], .mark ';'], fun more => rfl, rfl⟩
  have hint (n : Int) : ∀ c ∈ (Json.displayInt n).toList, isLoose c = true := by
    intro c hc
    rw [Json.displayInt, String.toList_ofList] at hc
    exact isLoose_of_isNumeric (Json.numeric_intText n c hc)
  unfold statusCode
  split
  · have htext : "    expect(response.ok()).toBeTruthy();\n" ++ "    expect(response.status()).toBe(" ++ "200);" =
        "    expect(response.ok()).toBeTruthy();" ++ "\n" ++
          ("    expect(response.status()).toBe(" ++ "200" ++ ");") := by decide +kernel
    rw [htext]
    exact hok.append (adds_toBe (List.all_eq_true.mp (by decide))) fun _ _ => Declares.append
  · split
    · exact adds_toBe (hint _)
    · exact adds_toBe h

theorem adds_readBody : Adds (Declares ["body"]) readBody := fun _ _ _ =>
  ⟨[.word "const", .word "body", .mark '=', .word "await", .word "response", .mark '.', .word "json",
    .group '(' [], .mark ';'], fun _ => rfl, rfl⟩

theorem adds_property (h : fits name.toList = true) :
    Adds (Declares []) ("    expect(body).toHaveProperty('" ++ name ++ "');") := by
  intro row outer rest
  refine ⟨[.word "expect", .group '(' [.word "body"], .mark '.', .word "toHaveProperty",
    .group '(' [.literal], .mark ';'], fun more => rfl, ?_⟩
  have hopen (text : List Char) :
      scan ⟨.code, row, outer⟩ ("    expect(body).toHaveProperty('".toList ++ text) =
        scan ⟨.quoted '\'', [], ('(', [.word "toHaveProperty", .mark '.', .group '(' [.word "body"],
          .word "expect"] ++ row) :: outer⟩ text := rfl
  have hquote (text : List Char) : "');".toList ++ text = '\'' :: (");".toList ++ text) := rfl
  simp only [String.toList_append, List.append_assoc]
  rw [hopen, hquote, scan_fits h]
  rfl

/-- The lines declare some names each. -/
def AddNames (lines : List String) (names : List (List String)) : Prop :=
  List.Forall₂ (fun line own => Adds (Declares own) line) lines names

theorem adds_join {line : String} {own : List String} (h : Adds (Declares own) line)
    {names : List (List String)} (hlines : AddNames lines names) :
    Adds (Declares (own ++ names.flatten)) (Text.join "\n" (line :: lines)) := by
  induction hlines generalizing line own with
  | nil =>
    rw [Text.join_singleton, List.flatten_nil, List.append_nil]
    exact h
  | cons hnext _ ih =>
    rw [Text.join_cons_cons, List.flatten_cons]
    exact h.append (ih hnext) fun _ _ => Declares.append

theorem adds_propertyCode (h : fits name.toList = true) :
    Adds (Declares ["body"]) (readBody ++ "\n    expect(body).toHaveProperty('" ++ name ++ "');") := by
  have hsplit : "\n    expect(body).toHaveProperty('" = "\n" ++ "    expect(body).toHaveProperty('" := by
    decide
  have hline := adds_readBody.append (adds_property h) fun _ _ => Declares.append
  rw [hsplit]
  simpa only [String.append_assoc, List.append_nil] using hline

theorem adds_arrayCode : Adds (Declares ["body"])
    (readBody ++ "\n    expect(Array.isArray(body)).toBeTruthy();\n" ++
      "    expect(body.length).toBeGreaterThan(0);") := by
  have hkind : Adds (Declares []) "    expect(Array.isArray(body)).toBeTruthy();" := fun _ _ _ =>
    ⟨[.word "expect", .group '(' [.word "Array", .mark '.', .word "isArray", .group '(' [.word "body"]],
      .mark '.', .word "toBeTruthy", .group '(' [], .mark ';'], fun _ => rfl, rfl⟩
  have hlength : Adds (Declares []) "    expect(body.length).toBeGreaterThan(0);" := fun _ _ _ =>
    ⟨[.word "expect", .group '(' [.word "body", .mark '.', .word "length"], .mark '.',
      .word "toBeGreaterThan", .group '(' [.word "0"], .mark ';'], fun _ => rfl, rfl⟩
  have hsplit : "\n    expect(Array.isArray(body)).toBeTruthy();\n" =
      "\n" ++ "    expect(Array.isArray(body)).toBeTruthy();" ++ "\n" := by decide +kernel
  have hline := (adds_readBody.append hkind fun _ _ => Declares.append).append hlength fun _ _ =>
    Declares.append
  rw [hsplit]
  simpa only [String.append_assoc, List.append_nil] using hline

theorem addNames_expectedBodyCode {expected : Json}
    (h : ∀ fields, expected = .obj fields → ∀ field ∈ fields, fits field.1.toList = true) :
    AddNames (expectedBodyCode expected) (List.replicate (checks expected) ["body"]) := by
  cases expected with
  | obj fields =>
    rw [AddNames, expectedBodyCode, checks, ← List.map_const', List.forall₂_map_left_iff,
      List.forall₂_map_right_iff, List.forall₂_same]
    exact fun field hfield => adds_propertyCode (h fields rfl field hfield)
  | str text =>
    by_cases htext : text = "array"
    · rw [htext]
      exact .cons adds_arrayCode .nil
    · simp [AddNames, expectedBodyCode, checks, htext]
  | _ => exact .nil

theorem exists_addNames_responseTimeCode {limit : Json} (h : isRemark limit.display.toList = true) :
    ∃ names, AddNames (responseTimeCode limit) names ∧ names.flatten = [] := by
  unfold responseTimeCode
  split
  · refine ⟨[[]], .cons (fun row outer rest => ⟨[], fun _ => rfl, ?_⟩) .nil, rfl⟩
    have hopen (text : List Char) :
        scan ⟨.code, row, outer⟩ ("    // Response time should be under ".toList ++ text) =
          scan ⟨.comment, row, outer⟩ text := rfl
    have hremark : isRemark (limit.display ++ "ms").toList = true := by
      rw [isRemark, String.toList_append, List.all_append, Bool.and_eq_true]
      exact ⟨h, by decide⟩
    rw [String.append_assoc, String.toList_append, List.append_assoc, hopen]
    exact scan_remark hremark
  · exact ⟨[], .nil, rfl⟩

/-! ## The whole test -/

def assertionsOf (members : List (String × Json)) : List String :=
  statusCode (given members "expected_status" (.int 200)) ::
    (expectedBodyCode (given members "expected_body" .null) ++
      responseTimeCode (given members "max_response_time_ms" .null))

def frame (members : List (String × Json)) (body headers assertions : String) : String :=
  Text.join "\n"
    ["  test('" ++ nameOf members ++ "', async (\x7b request \x7d) => \x7b",
      "    // " ++ descriptionOf members,
      "    ",
      "    const response = await request." ++ methodOf members ++ "('" ++ endpointOf members ++ "', \x7b",
      body,
      headers,
      "    \x7d);",
      "    ",
      assertions,
      "  \x7d);"]

theorem testCode_obj (h : Harmless members) (hbody : bodyCode (.obj members) = .ok body)
    (hheaders : headerCode (.obj members) = .ok headers) :
    testCode (.obj members) = .ok (frame members body headers (Text.join "\n" (assertionsOf members))) := by
  obtain ⟨text, htext⟩ := h.method
  have hmethod : methodOf members = Text.lower text := by rw [methodOf, htext]
  have hlower : Json.textFor "lower" (.str text) = .ok text := rfl
  unfold given at htext
  simp only [testCode, Json.getD_obj, Json.get_obj, ok_bind, htext, hbody, hheaders, hlower,
    ← hmethod]
  rfl

theorem adds_assertions (h : Harmless members) :
    Adds (Declares (List.replicate (checks (given members "expected_body" .null)) "body"))
      (Text.join "\n" (assertionsOf members)) := by
  obtain ⟨names, hlimit, hnames⟩ := exists_addNames_responseTimeCode h.limit
  have hlines := adds_join (adds_statusCode h.status)
    (List.rel_append (addNames_expectedBodyCode h.expected) hlimit)
  simpa [hnames, assertionsOf] using hlines

theorem exists_trees (h : Harmless members) {assertions : String}
    (hoptions : Adds P (body ++ "\n" ++ headers)) (hassertions : Adds Q assertions) :
    ∃ inner checks, P inner ∧ Q checks ∧
      trees? (frame members body headers assertions) =
        some [.word "test", .group '(' (functionRow.reverse ++ [.group '{'
          ((requestRow (methodOf members)).reverse ++ .group '(' [.literal, .mark ',', .group '{' inner] ::
            .mark ';' :: checks)]), .mark ';'] := by
  have hblank (row : List Tree) (outer : List (Char × List Tree)) (text : List Char) :
      scan ⟨.code, row, outer⟩ ("    ".toList ++ ("\n".toList ++ text)) = scan ⟨.code, row, outer⟩ text := rfl
  have hline (row : List Tree) (outer : List (Char × List Tree)) (text : List Char) :
      scan ⟨.code, row, outer⟩ ("\n".toList ++ text) = scan ⟨.code, row, outer⟩ text := rfl
  have hclose (inner row : List Tree) (outer : List (Char × List Tree)) (text : List Char) :
      scan ⟨.code, inner, ('{', [.mark ',', .literal]) :: ('(', row) :: outer⟩
          ("    \x7d);".toList ++ ("\n".toList ++ ("    ".toList ++ ("\n".toList ++ text)))) =
        scan ⟨.code, .mark ';' :: .group '(' [.literal, .mark ',', .group '{' inner.reverse] :: row,
          outer⟩ text := rfl
  have hend (row : List Tree) :
      scan ⟨.code, row, [('{', functionRow), ('(', [.word "test"])]⟩ "  \x7d);".toList =
        some ⟨.code, [.mark ';', .group '(' (functionRow.reverse ++ [.group '{' row.reverse]),
          .word "test"], []⟩ := rfl
  obtain ⟨inner, hinner, hscanOptions⟩ := hoptions []
    [('{', [.mark ',', .literal]), ('(', requestRow (methodOf members) ++ []), ('{', functionRow),
      ('(', [.word "test"])]
    ("    \x7d);".toList ++ ("\n".toList ++ ("    ".toList ++ ("\n".toList ++
      (assertions.toList ++ ("\n".toList ++ "  \x7d);".toList))))))
  obtain ⟨checks, hchecks, hscanChecks⟩ := hassertions
    (.mark ';' :: .group '(' [.literal, .mark ',', .group '{' inner] :: requestRow (methodOf members))
    [('{', functionRow), ('(', [.word "test"])] "  \x7d);".toList
  refine ⟨inner, checks, hinner, hchecks, ?_⟩
  simp only [String.toList_append, List.append_assoc] at hscanOptions
  simp only [trees?, frame, Text.join_cons_cons, Text.join_singleton, String.toList_append, List.append_assoc]
  rw [scan_title h.name, scan_description h.description, hblank,
    scan_request h.word.1 h.word.2 h.endpoint, hline, hscanOptions, hclose, List.append_nil,
    List.append_nil, List.reverse_reverse, hscanChecks, hend]
  simp

/-- A test is read with its function and its request, which declares the response and then
the body as often as it is checked, and whose options are separated unless both are there. -/
theorem wellFormed_iff {members : List (String × Json)} (h : Harmless members) :
    ∃ code block body options, testCode (.obj members) = .ok code ∧ trees? code = some block ∧
      functionBody? block = some body ∧ requestOptions? body = some options ∧
      declared body = "response" ::
        List.replicate (checks (given members "expected_body" .null)) "body" ∧
      ((declared body).Nodup ↔ checks (given members "expected_body" .null) ≤ 1) ∧
      (Separated options ↔ ¬ ((given members "body" .null).isTruthy = true ∧
        (given members "headers" .null).isTruthy = true)) := by
  obtain ⟨bodyText, hbody, hreadBody⟩ := exists_bodyCode h
  obtain ⟨headerText, hheaders, hreadHeaders⟩ := exists_headerCode h
  have hoptions : Adds (fun options => Separated options ↔
      ¬ ((given members "body" .null).isTruthy = true ∧ (given members "headers" .null).isTruthy = true))
      (bodyText ++ "\n" ++ headerText) := hreadBody.append hreadHeaders fun _ _ => separated_iff
  obtain ⟨options, checked, hseparated, hdeclares, htrees⟩ :=
    exists_trees h hoptions (adds_assertions h)
  have hdeclared : declared ((requestRow (methodOf members)).reverse ++
      .group '(' [.literal, .mark ',', .group '{' options] :: .mark ';' :: checked) =
        "response" :: List.replicate (checks (given members "expected_body" .null)) "body" := by
    have hchecked := hdeclares []
    rw [List.append_nil, declared, List.append_nil] at hchecked
    rw [← hchecked]
    rfl
  refine ⟨_, _, _, options, testCode_obj h hbody hheaders, htrees, rfl, rfl, hdeclared, ?_, hseparated⟩
  rw [hdeclared, List.nodup_cons, List.nodup_replicate]
  simp [List.mem_replicate]

def crowdedTest : List (String × Json) :=
  [("method", .str "POST"), ("endpoint", .str "/users"), ("body", .obj [("name", .str "O'Brien")]),
    ("headers", .obj [("X-Key", .str "k")]),
    ("expected_body", .obj [("id", .null), ("name", .null)])]

theorem harmless_crowdedTest : Harmless crowdedTest where
  method := ⟨"POST", rfl⟩
  word := ⟨by decide +kernel, List.all_eq_true.mp (by decide +kernel)⟩
  endpoint := by decide +kernel
  name := by decide +kernel
  description := by decide +kernel
  bodyType := ⟨"json", rfl⟩
  body := .obj fun field hfield => by
    rw [List.mem_singleton.mp hfield]
    exact .str _
  headers _ := ⟨_, rfl, by decide +kernel⟩
  status := List.all_eq_true.mp (by decide +kernel)
  expected fields hfields := by
    cases hfields
    decide +kernel
  limit := by decide +kernel

/-- The body is declared twice, and a comma is missing. -/
theorem not_wellFormed_crowdedTest : Harmless crowdedTest ∧
    ∃ code block body options, testCode (.obj crowdedTest) = .ok code ∧ trees? code = some block ∧
      functionBody? block = some body ∧ requestOptions? body = some options ∧
      declared body = ["response", "body", "body"] ∧ ¬ (declared body).Nodup ∧ ¬ Separated options := by
  obtain ⟨code, block, body, options, hcode, hblock, hbody, hoptions, hdeclared, hnodup, hseparated⟩ :=
    wellFormed_iff harmless_crowdedTest
  refine ⟨harmless_crowdedTest, code, block, body, options, hcode, hblock, hbody, hoptions, hdeclared, ?_, ?_⟩
  · rw [hnodup]
    decide
  · rw [hseparated, not_not]
    decide

end Sitecheck.Spec.Api
