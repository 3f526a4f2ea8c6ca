import LinkScript.Log
import LinkScript.Proofs.Fields
import LinkScript.Proofs.Run

/-!
# A logger is its root and the metadata on the way to it

Loggers are numbered as they come, and `Reached` follows the replies: it says by which metadata,
one child below the other, a number is reached from the root.  Every member is (`exists_reached`).
What a family is asked leaves the members it has alone (`respond_keeps`, `grow_keeps`), and so the
member with that number is the root with the metadata merged in along the way, whatever else was
asked (`grow_of_reached`).

`family_replies` draws the conclusion: a reply does not depend on the other requests, and what is
logged is the line of the root for everything merged.  `Log.Shows` says how the merged metadata
appears in that line, and `Fields.Overlays` what the merged metadata is.
-/

namespace LinkScript.Log

/-! ## Metadata in a line -/

/-- The members that metadata appears as: the names in their order without `__proto__`, errors as
objects of their parts, and other values as they are. -/
structure Shows (traced : Bool) (metadata : Fields Value) (members : Fields Json) : Prop where
  names : members.map Prod.fst = (metadata.map Prod.fst).filter (· ≠ "__proto__")
  error : ∀ field ≠ "__proto__", ∀ name message stack own,
    metadata.get? field = some (.error name message stack own) →
      members.get? field = some (.obj ([("name", .str name), ("message", .str message)] ++
        if traced then (stack.map fun trace => ("stack", .str trace)).toList else []))
  plain : ∀ field ≠ "__proto__", ∀ value, metadata.get? field = some value →
    (∀ name message stack own, value ≠ .error name message stack own) →
      members.get? field = some value.toJson

/-- What is written of metadata is what it appears as. -/
theorem metadataToJson_shows (traced : Bool) (metadata : Fields Value) :
    ∃ members, metadataToJson traced metadata = .obj members ∧ Shows traced metadata members := by
  refine ⟨_, rfl, ?_, ?_, ?_⟩
  · rw [Fields.names_mapValues, Fields.names_erase]
  · intro field differ name message stack own found
    rw [Fields.get?_mapValues, Fields.get?_erase _ differ, found, Option.map_some]
    cases traced <;> cases stack <;> rfl
  · intro field differ value found noError
    rw [Fields.get?_mapValues, Fields.get?_erase _ differ, found, Option.map_some]
    cases value with
    | error name message stack own => exact absurd rfl (noError name message stack own)
    | _ => rfl

/-! ## One request -/

/-- Members stay what they are. -/
theorem respond_keeps {family : Array Logger} {number : Nat} {logger : Logger}
    (member : family[number]? = some logger) (request : Request) :
    (respond family request).2[number]? = some logger := by
  have inside : number < family.size := (Array.getElem?_eq_some_iff.mp member).1
  cases request with
  | child parent metadata =>
    rw [respond]
    split
    · rw [Array.getElem?_push_lt inside, ← member, Array.getElem?_eq_getElem inside]
    · exact member
  | log on level event metadata =>
    rw [respond]
    split <;> exact member

/-- A child that is given a number is its parent with more metadata. -/
theorem respond_child {family : Array Logger} {parent number : Nat} {metadata : Fields Value}
    (answered : (respond family (.child parent metadata)).1 = .member number) :
    ∃ logger, family[parent]? = some logger ∧
      (respond family (.child parent metadata)).2[number]? = some (logger.child metadata) := by
  rw [respond] at answered ⊢
  cases above : family[parent]? with
  | none => simp [above] at answered
  | some logger =>
    simp only [above, Reply.member.injEq] at answered
    refine ⟨logger, rfl, ?_⟩
    rw [← answered]
    exact Array.getElem?_push_size

/-! ## One request after another -/

/-- The family after some requests. -/
def grow (family : Array Logger) (requests : List Request) : Array Logger :=
  requests.foldl (fun family request => (respond family request).2) family

/-- The first request is asked of the family as it is, and the others of what it leaves. -/
theorem respondAll_cons (family : Array Logger) (first : Request) (rest : List Request) :
    respondAll family (first :: rest) =
      (respond family first).1 :: respondAll (respond family first).2 rest := rfl

/-- The replies come one for each request. -/
theorem length_respondAll (family : Array Logger) (requests : List Request) :
    (respondAll family requests).length = requests.length := by
  induction requests generalizing family with
  | nil => rfl
  | cons first rest ih => rw [respondAll_cons, List.length_cons, List.length_cons, ih]

/-- Later requests are asked of the family that the earlier ones leave. -/
theorem respondAll_append (family : Array Logger) (before after : List Request) :
    respondAll family (before ++ after) =
      respondAll family before ++ respondAll (grow family before) after := by
  induction before generalizing family with
  | nil => rfl
  | cons first rest ih => rw [List.cons_append, respondAll_cons, respondAll_cons, ih]; rfl

/-- The reply to a request is the one of the family that the requests before it leave. -/
theorem reply_eq (family : Array Logger) (before after : List Request) (request : Request) :
    (respondAll family (before ++ request :: after))[before.length]? =
      some (respond (grow family before) request).1 := by
  rw [respondAll_append, ← length_respondAll family before,
    List.getElem?_append_right (Nat.le_refl _), Nat.sub_self]
  rfl

/-- Members stay what they are, whatever is asked. -/
theorem grow_keeps {family : Array Logger} {number : Nat} {logger : Logger}
    (member : family[number]? = some logger) (requests : List Request) :
    (grow family requests)[number]? = some logger := by
  induction requests generalizing family with
  | nil => exact member
  | cons first rest ih => exact ih (respond_keeps member first)

/-- A child that was given a number along the way is its parent with more metadata at the end. -/
theorem grow_child {family : Array Logger} {requests : List Request} {parent number : Nat}
    {metadata : Fields Value}
    (answered : (.child parent metadata, .member number) ∈
      requests.zip (respondAll family requests)) :
    ∃ logger, (grow family requests)[parent]? = some logger ∧
      (grow family requests)[number]? = some (logger.child metadata) := by
  induction requests generalizing family with
  | nil => simp at answered
  | cons first rest ih =>
    rw [respondAll_cons, List.zip_cons_cons, List.mem_cons, Prod.mk.injEq] at answered
    obtain ⟨rfl, here⟩ | later := answered
    · obtain ⟨logger, above, new⟩ := respond_child here.symm
      exact ⟨logger, grow_keeps (respond_keeps above _) rest, grow_keeps new rest⟩
    · exact ih later

/-! ## The way from the root -/

/-- A number is reached from the root by children with metadata, one below the other, as the
replies to requests tell. -/
inductive Reached (root : Logger) (requests : List Request) : Nat → List (Fields Value) → Prop where
  | root : Reached root requests 0 []
  | child {parent number : Nat} {layers : List (Fields Value)} {metadata : Fields Value}
      (above : Reached root requests parent layers)
      (answered : (.child parent metadata, .member number) ∈
        requests.zip (respondAll #[root] requests)) :
      Reached root requests number (layers ++ [metadata])

section

variable {root : Logger} {requests : List Request} {number : Nat} {layers : List (Fields Value)}

/-- What is reached stays reached by the same way. -/
theorem Reached.append (reached : Reached root requests number layers) (more : List Request) :
    Reached root (requests ++ more) number layers := by
  induction reached with
  | root => exact .root
  | child above answered ih =>
    refine .child ih ?_
    rw [respondAll_append, List.zip_append (length_respondAll _ _).symm]
    exact List.mem_append_left _ answered

/-- The member that is reached is the root with the metadata on the way. -/
theorem grow_of_reached (reached : Reached root requests number layers) :
    (grow #[root] requests)[number]? = some (layers.foldl Logger.child root) := by
  induction reached with
  | root => exact grow_keeps rfl requests
  | child above answered ih =>
    obtain ⟨logger, parent, new⟩ := grow_child answered
    rw [new, List.foldl_append, Option.some.inj (parent.symm.trans ih)]
    rfl

/-- Children differ from their root in the metadata only. -/
theorem foldl_child (root : Logger) (layers : List (Fields Value)) :
    layers.foldl Logger.child root =
      { root with metadata := layers.foldl Fields.merge root.metadata } := by
  induction layers generalizing root with
  | nil => rfl
  | cons first rest ih => exact ih (root.child first)

/-- A member that is asked for a child gets one with a new number. -/
theorem respond_child_of_reached (reached : Reached root requests number layers)
    (metadata : Fields Value) :
    ∃ new, (respond (grow #[root] requests) (.child number metadata)).1 = .member new ∧
      Reached root (requests ++ [.child number metadata]) new (layers ++ [metadata]) ∧
      ∀ others, ¬Reached root requests new others := by
  have answer : (respond (grow #[root] requests) (.child number metadata)).1 =
      .member (grow #[root] requests).size := by
    rw [respond, grow_of_reached reached]
  refine ⟨_, answer, .child (reached.append _) ?_, fun others old => ?_⟩
  · rw [respondAll_append, List.zip_append (length_respondAll _ _).symm]
    exact List.mem_append_right _ (answer ▸ .head _)
  · have outside := grow_of_reached old
    simp at outside

end

/-- No member is left out: each is reached in some way. -/
theorem exists_reached (root : Logger) (requests : List Request) :
    ∀ number < (grow #[root] requests).size, ∃ layers, Reached root requests number layers := by
  induction requests using List.reverseRecOn with
  | nil =>
    intro number inside
    rw [Nat.lt_one_iff.mp inside]
    exact ⟨[], .root⟩
  | append_singleton before request ih =>
    intro number inside
    have old (known : number < (grow #[root] before).size) :
        ∃ layers, Reached root (before ++ [request]) number layers :=
      (ih number known).imp fun _ reached => reached.append [request]
    rw [grow, List.foldl_append, ← grow] at inside
    change number < (respond (grow #[root] before) request).2.size at inside
    cases request with
    | log on level event metadata =>
      rw [respond] at inside
      split at inside <;> exact old inside
    | child parent metadata =>
      rw [respond] at inside
      cases above : (grow #[root] before)[parent]? with
      | none => exact old (by simpa [above] using inside)
      | some logger =>
        simp only [above, Array.size_push] at inside
        obtain known | rfl := Nat.lt_succ_iff_lt_or_eq.mp inside
        · exact old known
        · obtain ⟨layers, reached⟩ := ih parent (Array.getElem?_eq_some_iff.mp above).1
          obtain ⟨new, answer, way, -⟩ := respond_child_of_reached reached metadata
          rw [respond, above] at answer
          cases answer
          exact ⟨_, way⟩

/-! ## What is logged -/

/-- A descendant of a root without metadata writes the line of the root for everything merged. -/
theorem line?_foldl_child {root : Logger} (bare : root.metadata = []) (layers : List (Fields Value))
    (level : LogLevel) (event : String) (metadata : Fields Value) :
    (layers.foldl Logger.child root).line? level event metadata =
      root.line? level event ((layers ++ [metadata]).foldl Fields.merge []) := by
  have settled := (Fields.overlays_foldl_merge (layers ++ [metadata])).merge_nil
  have merged : (layers.foldl Fields.merge []).merge metadata =
      (layers ++ [metadata]).foldl Fields.merge [] := by
    rw [List.foldl_append]
    rfl
  rw [foldl_child, bare]
  simp only [Logger.line?, Logger.record, bare, merged, settled]

/-- What a member that is reached logs, whatever was asked before and will be after. -/
theorem reply_log_of_reached {root : Logger} (bare : root.metadata = [])
    (accepting : root.IsAccepting) {before : List Request} {number : Nat}
    {layers : List (Fields Value)} (reached : Reached root before number layers)
    (after : List Request) (level : LogLevel) (event : String) (metadata : Fields Value) :
    (respondAll #[root] (before ++ .log number level event metadata :: after))[before.length]? =
      some (.ran (Run.logging
        (root.line? level event ((layers ++ [metadata]).foldl Fields.merge [])).toList ())) := by
  have takes : (layers.foldl Logger.child root).IsAccepting := by
    rw [foldl_child]
    exact accepting
  rw [reply_eq, respond, grow_of_reached reached]
  dsimp only
  rw [Logger.log_eq takes, line?_foldl_child bare]

/-- The line of a root for merged metadata, part by part. -/
theorem line?_create (timestamp : String) (environment : Option Environment)
    (minLevel : Option LogLevel) (accept : String → Except String Unit) (level : LogLevel)
    (event : String) (layers : List (Fields Value)) :
    let place := environment.getD .development
    let lowest := minLevel.getD place.minLevel
    let merged := layers.foldl Fields.merge []
    ∃ members, Shows (place ≠ .production) merged members ∧
      ((Logger.create timestamp environment minLevel accept).line? level event merged).toList =
        if level.priority < lowest.priority then []
        else [(Json.obj [("level", .str level.name), ("event_type", .str event),
          ("metadata", .obj members), ("timestamp", .str timestamp)]).compress] := by
  intro place lowest merged
  have traced : place.includesStacks = decide (place ≠ .production) := by
    cases place <;> rfl
  obtain ⟨members, written, shows⟩ := metadataToJson_shows place.includesStacks merged
  refine ⟨members, traced ▸ shows, ?_⟩
  have settled : Fields.merge [] merged = merged := (Fields.overlays_foldl_merge layers).merge_nil
  have record : (Logger.create timestamp environment minLevel accept).record level event merged =
      .obj [("level", .str level.name), ("event_type", .str event), ("metadata", .obj members),
        ("timestamp", .str timestamp)] := by
    rw [Logger.record, ← written]
    change Json.obj [_, _, (_, metadataToJson _ (Fields.merge [] merged)), _] = _
    rw [settled]
    rfl
  rw [Logger.line?, record]
  change (if level.priority < lowest.priority then _ else _ : Option String).toList = _
  split <;> rfl

/-- A family grows from a root that is made for any environment, any level and any time, and that
takes every line.  After any requests, and in front of any others, a member that is reached by
children with some metadata

* answers the request for a child with a new number, which is reached by one child more, and
* answers the request to log as the root does, in a family with any other past and future, for the
  metadata of all these children and of the request, merged from left to right: with no line if the
  level is below the lowest of the root, and otherwise with the one line that has the level, the
  event, the merged metadata and the time. -/
theorem family_replies (timestamp : String) (environment : Option Environment)
    (minLevel : Option LogLevel) (accept : String → Except String Unit)
    (accepting : ∀ line, accept line = .ok ()) (before after : List Request) (on : Nat)
    (layers : List (Fields Value))
    (reached : Reached (Logger.create timestamp environment minLevel accept) before on layers) :
    let root := Logger.create timestamp environment minLevel accept
    let place := environment.getD .development
    let lowest := minLevel.getD place.minLevel
    (∀ metadata, ∃ number,
      (respondAll #[root] (before ++ .child on metadata :: after))[before.length]? =
        some (.member number) ∧
      Reached root (before ++ [.child on metadata]) number (layers ++ [metadata]) ∧
      ∀ others, ¬Reached root before number others) ∧
    ∀ level event metadata,
      let merged := (layers ++ [metadata]).foldl Fields.merge []
      let reply := (respondAll #[root] (before ++ .log on level event metadata :: after))[
        before.length]?
      (∀ past future,
        reply = (respondAll #[root] (past ++ .log 0 level event merged :: future))[
          past.length]?) ∧
      Fields.Overlays (layers ++ [metadata]).flatten merged ∧
      ∃ members, Shows (place ≠ .production) merged members ∧
        reply = some (.ran (Run.logging
          (if level.priority < lowest.priority then []
          else [(Json.obj [("level", .str level.name), ("event_type", .str event),
            ("metadata", .obj members), ("timestamp", .str timestamp)]).compress]) ())) := by
  intro root place lowest
  have bare : root.metadata = [] := rfl
  refine ⟨fun metadata => ?_, fun level event metadata => ?_⟩
  · rw [reply_eq]
    obtain ⟨number, answer, way, new⟩ := respond_child_of_reached reached metadata
    exact ⟨number, congrArg some answer, way, new⟩
  · intro merged reply
    have here : reply = some (.ran (Run.logging (root.line? level event merged).toList ())) :=
      reply_log_of_reached bare accepting reached after level event metadata
    have overlays := Fields.overlays_foldl_merge (layers ++ [metadata])
    refine ⟨fun past future => ?_, overlays, ?_⟩
    · have settled : [merged].foldl Fields.merge [] = merged := overlays.merge_nil
      have there := reply_log_of_reached bare accepting (.root : Reached root past 0 []) future
        level event merged
      rw [List.nil_append, settled] at there
      exact here.trans there.symm
    · obtain ⟨members, shows, line⟩ :=
        line?_create timestamp environment minLevel accept level event (layers ++ [metadata])
      exact ⟨members, shows, by rw [here, line]⟩

/-- A child of a child, with a sibling in between: a name is overwritten in its place, array indexes
stand first, `__proto__` is left out, and the error is written with its trace. -/
theorem family_replies_grandchild :
    let root := Logger.create "T" none none fun _ => .ok ()
    let above : Fields Value := [("b", .str "1"), ("10", .bool true)]
    let below : Fields Value := [("c", .null), ("9", .null), ("b", .str "2"), ("__proto__", .null)]
    let failure : Fields Value := [("e", .error "TypeError" "bad" (some "at f") [])]
    let before : List Request := [.child 0 above, .child 0 [("b", .null)], .child 1 below]
    let line := "\x7b\"level\":\"warn\",\"event_type\":\"failed\",\"metadata\":\x7b" ++
      "\"9\":null,\"10\":true,\"b\":\"2\",\"c\":null," ++
      "\"e\":\x7b\"name\":\"TypeError\",\"message\":\"bad\",\"stack\":\"at f\"\x7d\x7d," ++
      "\"timestamp\":\"T\"\x7d"
    Reached root before 3 [above, below] ∧
      (respondAll #[root] (before ++ [.log 3 .warn "failed" failure]))[3]? =
        some (.ran (Run.logging [line] ())) := by
  intro root above below failure before line
  have reached : Reached root before 3 [above, below] :=
    .child (.child .root (.head _)) (.tail _ (.tail _ (.head _)))
  have replies := family_replies "T" none none (fun _ => .ok ()) (fun _ => rfl) before [] 3
    [above, below] reached
  have asRoot := (replies.2 .warn "failed" failure).1 [] []
  have written : root.line? .warn "failed" ([above, below, failure].foldl Fields.merge []) =
      some line := by
    decide +kernel
  refine ⟨reached, asRoot.trans ?_⟩
  change some (Reply.ran (root.log .warn "failed" _)) = _
  rw [Logger.log_eq fun _ => rfl]
  exact congrArg (fun written => some (Reply.ran (Run.logging written.toList ()))) written

end LinkScript.Log
