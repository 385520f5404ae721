import WebServer.Core.Output
import WebServer.Properties.RequestGrammar

/-!
# The decision about keep-alive

`ShouldKeepAlive` looks for a word anywhere in the value of the last `Connection` line.  That is
the option the lines list exactly when the last line decides.
-/

namespace WebServer.Properties

open WebServer.Net WebServer.Http WebServer.Core

variable {header : Bytes} {method : HttpMethod} {uri version name word value : Bytes}
  {fields : List (Bytes × Bytes)} {request : HttpRequest}

/-! ## Options -/

/-- The values of the `Connection` lines, in the order of the block. -/
def connectionValues (fields : List (Bytes × Bytes)) : List Bytes :=
  (fields.filter (·.1 = ascii "connection")).map (·.2)

/-- The word is an element of the comma-separated list, whole and in any letter case. -/
def Lists (word value : Bytes) : Prop :=
  ∃ element ∈ value.splitOn 44, lowercaseCopy (trim element) = word

/-- The word occurs somewhere in the value. -/
def Mentions (word value : Bytes) : Prop := word <:+: lowercaseCopy value

/-- Some `Connection` line lists the word. -/
def IsOption (word : Bytes) (fields : List (Bytes × Bytes)) : Prop :=
  ∃ value ∈ connectionValues fields, Lists word value

theorem lastValue_connection (fields : List (Bytes × Bytes)) :
    lastValue (ascii "connection") fields = (connectionValues fields).getLast? := by
  induction fields using List.reverseRecOn with
  | nil => rfl
  | append_singleton fields field ih =>
    rw [lastValue_concat, ih, connectionValues, connectionValues, List.filter_append]
    by_cases h : field.1 = ascii "connection" <;> simp [h]

theorem infix_of_mem_splitOn {b : UInt8} {element : Bytes} (h : element ∈ value.splitOn b) :
    element <:+: value := by
  obtain ⟨before, after, hsplit⟩ := List.append_of_mem h
  have hjoin := @List.intercalate_splitOn _ value _ _ b
  rw [hsplit] at hjoin
  rw [← hjoin]
  clear hsplit hjoin
  induction before with
  | nil =>
    cases after with
    | nil => simp
    | cons next after => exact (List.prefix_append ..).isInfix
  | cons first before ih =>
    obtain ⟨next, rest, hrest⟩ := List.exists_cons_of_ne_nil
      (show before ++ element :: after ≠ [] by simp)
    rw [List.cons_append]
    rw [hrest] at ih ⊢
    refine ih.trans ⟨first ++ [b], [], ?_⟩
    simp [List.intercalate]

theorem trim_occurs (text : Bytes) : trim text <:+: text :=
  (List.reverse_infix.mp (by
    rw [trim, List.reverse_reverse]
    exact (List.dropWhile_suffix _).isInfix)).trans (List.dropWhile_suffix _).isInfix

/-- A value mentions what it lists. -/
theorem Lists.mentions (h : Lists word value) : Mentions word value := by
  obtain ⟨element, hmem, rfl⟩ := h
  exact ((trim_occurs element).trans (infix_of_mem_splitOn hmem)).map toLower

/-! ## The decision -/

/-- The option that changes what the version does by default. -/
def decidingWord (version : Bytes) : Bytes :=
  if version = ascii "HTTP/1.1" then ascii "close" else ascii "keep-alive"

/-- The connection is kept by `HTTP/1.1` without the option `close`, and by `HTTP/1.0` with
the option `keep-alive`. -/
def FollowsOptions (version : Bytes) (fields : List (Bytes × Bytes)) (request : HttpRequest) :
    Prop :=
  (version = ascii "HTTP/1.1" →
    (shouldKeepAlive request = false ↔ IsOption (ascii "close") fields)) ∧
  (version = ascii "HTTP/1.0" →
    (shouldKeepAlive request = true ↔ IsOption (ascii "keep-alive") fields))

/-- The last `Connection` line lists the word, or it mentions the word exactly if an earlier
line lists it. -/
def LastLineDecides (word : Bytes) (fields : List (Bytes × Bytes)) : Prop :=
  ∀ earlier last, connectionValues fields = earlier ++ [last] →
    Lists word last ∨ (Mentions word last ↔ ∃ value ∈ earlier, Lists word value)

/-- The last line is where an option must be for the code to see it. -/
theorem lastLineDecides_iff : LastLineDecides word fields ↔
    ((∃ last ∈ (connectionValues fields).getLast?, Mentions word last) ↔ IsOption word fields) := by
  unfold LastLineDecides IsOption
  rcases List.eq_nil_or_concat (connectionValues fields) with hnil | ⟨earlier, last, hlast⟩
  · simp [hnil]
  · rw [List.concat_eq_append] at hlast
    rw [hlast]
    have hcases : (∃ value ∈ earlier ++ [last], Lists word value) ↔
        (∃ value ∈ earlier, Lists word value) ∨ Lists word last := by
      simp [or_and_right, exists_or]
    have hmention : (∃ l ∈ (earlier ++ [last]).getLast?, Mentions word l) ↔ Mentions word last := by
      simp
    rw [hcases, hmention]
    constructor
    · intro h
      rcases h earlier last rfl with hlists | hiff
      · exact ⟨fun _ => .inr hlists, fun _ => hlists.mentions⟩
      · exact ⟨fun hm => .inl (hiff.mp hm), fun ho => ho.elim hiff.mpr Lists.mentions⟩
    · intro h earlier' last' heq
      obtain ⟨rfl, hsame⟩ := List.append_inj' heq rfl
      obtain rfl := List.singleton_inj.mp hsame
      by_cases hlists : Lists word last
      · exact .inl hlists
      · exact .inr ⟨fun hm => (h.mp hm).resolve_right hlists, fun ho => h.mpr (.inl ho)⟩

theorem shouldKeepAlive_eq (request : HttpRequest) : shouldKeepAlive request =
    if request.version = ascii "HTTP/1.1" then
      !(request.findHeader (ascii "connection")).any (containsHeaderToken · (ascii "close"))
    else (request.findHeader (ascii "connection")).any (containsHeaderToken · (ascii "keep-alive")) := by
  unfold shouldKeepAlive
  cases request.findHeader (ascii "connection") <;> rfl

/-- What the code looks for. -/
theorem mentions_last_iff (h : Describes method uri version fields request) (word : Bytes) :
    (request.findHeader (ascii "connection")).any (containsHeaderToken · word) = true ↔
      ∃ last ∈ (connectionValues fields).getLast?, Mentions word last := by
  rw [h.headers, lastValue_connection, Option.any_eq_true]
  simp [containsHeaderToken, Search.find?_isSome_iff, Mentions]

theorem Grammatical.supported (h : Grammatical header method uri version fields) :
    version = ascii "HTTP/1.0" ∨ version = ascii "HTTP/1.1" := by
  obtain ⟨requestLine, lines, -, -, hrequest, -⟩ := h.lines
  cases hrequest with
  | mk _ _ _ hversion => simpa using hversion

/-- **Options and the decision.**  The decision follows the options of an accepted block exactly
when the last `Connection` line decides about the word that counts for its version. -/
theorem shouldKeepAlive_options_iff (hparse : parseRequestHeader header = .ok request)
    (h : Grammatical header method uri version fields) :
    FollowsOptions version fields request ↔ LastLineDecides (decidingWord version) fields := by
  have hdesc := h.describes hparse
  have hne : ascii "HTTP/1.0" ≠ ascii "HTTP/1.1" := by decide
  have hversion := hdesc.version
  rw [lastLineDecides_iff, ← mentions_last_iff hdesc]
  unfold FollowsOptions decidingWord
  rw [shouldKeepAlive_eq, hversion]
  rcases h.supported with rfl | rfl
  · simp only [hne, false_implies, true_and, true_implies, if_false]
  · simp only [hne.symm, false_implies, and_true, true_implies, if_true, Bool.not_eq_false']

/-- A request that asks for the end of the connection, and for another protocol. -/
def upgradeAfterClose : Bytes :=
  ascii "GET / HTTP/1.1\r\nConnection: close\r\nConnection: Upgrade\r\n\r\n"

/-- The header lines of `upgradeAfterClose`. -/
def upgradeFields : List (Bytes × Bytes) :=
  [(ascii "connection", ascii "close"), (ascii "connection", ascii "Upgrade")]

theorem grammatical_upgradeAfterClose :
    Grammatical upgradeAfterClose .kGet (ascii "/") (ascii "HTTP/1.1") upgradeFields := by
  have hrequest : IsRequestLine (ascii "GET / HTTP/1.1") .kGet (ascii "/") (ascii "HTTP/1.1") :=
    @IsRequestLine.mk .kGet (ascii "GET") (ascii "/") (ascii "HTTP/1.1") (by simp) (by decide)
      (by decide) (by simp)
  have hfirst : IsHeaderField (ascii "Connection: close") (ascii "connection", ascii "close") :=
    @IsHeaderField.mk (ascii "Connection") (ascii " close") (by decide) (by decide)
  have hsecond : IsHeaderField (ascii "Connection: Upgrade") (ascii "connection", ascii "Upgrade") :=
    @IsHeaderField.mk (ascii "Connection") (ascii " Upgrade") (by decide) (by decide)
  refine ⟨⟨_, _, ?_, ?_, hrequest, ?_, .cons hfirst (.cons hsecond .nil)⟩, ?_⟩
  · decide
  · exact Lines.isLine_of_not_mem (by decide)
  · simp only [List.forall_mem_cons]
    refine ⟨?_, ?_, by simp⟩
    all_goals exact Lines.isLine_of_not_mem (by decide)
  · unfold upgradeFields IsContentLength
    decide

theorem parse_upgradeAfterClose : ∃ request,
    parseRequestHeader upgradeAfterClose = .ok request ∧ shouldKeepAlive request = true := by
  have hkept : (parseRequestHeader upgradeAfterClose).toOption.map shouldKeepAlive = some true := by
    decide +kernel
  cases hparse : parseRequestHeader upgradeAfterClose with
  | ok request =>
    rw [hparse] at hkept
    exact ⟨request, rfl, Option.some.inj hkept⟩
  | error e =>
    rw [hparse] at hkept
    cases hkept

/-- The option `close` is forgotten when another `Connection` line follows. -/
theorem not_followsOptions_upgradeAfterClose : ¬ ∀ header request method uri version fields,
    IsBlock header → parseRequestHeader header = .ok request →
      Grammatical header method uri version fields → FollowsOptions version fields request := by
  intro h
  obtain ⟨request, hparse, hkept⟩ := parse_upgradeAfterClose
  have hblock : IsBlock upgradeAfterClose := ⟨54, by decide +kernel, by decide +kernel⟩
  have hclose : IsOption (ascii "close") upgradeFields :=
    ⟨ascii "close", by decide, ascii "close", by decide, by decide⟩
  have hfalse := ((h _ request _ _ _ _ hblock hparse grammatical_upgradeAfterClose).1 rfl).mpr hclose
  exact Bool.false_ne_true (hfalse.symm.trans hkept)

/-- Its last line does not decide. -/
theorem shouldKeepAlive_options_iff_upgradeAfterClose : ∃ request,
    parseRequestHeader upgradeAfterClose = .ok request ∧
      (FollowsOptions (ascii "HTTP/1.1") upgradeFields request ↔
        LastLineDecides (ascii "close") upgradeFields) := by
  obtain ⟨request, hparse, -⟩ := parse_upgradeAfterClose
  exact ⟨request, hparse, shouldKeepAlive_options_iff hparse grammatical_upgradeAfterClose⟩

end WebServer.Properties
