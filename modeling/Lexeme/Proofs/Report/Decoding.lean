/-
Lexeme.Proofs.Report.Decoding — a listing says which tokens it lists.

Either form of a line can be read back to its token: the plain one part by
part, the other one as a JSON object, looking for the three keys. What a text
holds does not matter, be it line feeds, quotes or what looks like an escape,
since a line has no control but the line feed at its end. So the listing as a
whole is cut into lines and read line by line (`Format.read?_lines`), and no
two lists of tokens have the same listing.

  §1 Lines    — a token read back from its line, in either form.
  §2 Listings — all tokens read back from a listing.
-/
import Lexeme.Proofs.Report.Listing
import Lexeme.Proofs.Text.Json

namespace Lexeme

open Text

/-! ## §1 Lines -/

namespace Token

/-- The token of a plain line, its line feed included. -/
def ofPlain? (line : List Char) : Option Token :=
  match Kind.ofName? (.ofList (line.takeWhile (· != ' '))), line.dropWhile (· != ' ') with
  | some kind, ' ' :: rest =>
    match numeral 10 rest with
    | some (start, ' ' :: rest) =>
      match Quoted.escapes.text rest with
      | some (text, ['\n']) => some ⟨kind, text, start⟩
      | _ => none
    | _ => none
  | _, _ => none

/-- A token as a JSON object. -/
def members (t : Token) : List (String × Json.Value) :=
  [("kind", .text t.kind.name), ("text", .text t.text), ("start", .number t.start)]

/-- The token with the members of a JSON object, whatever their order and whatever else is there. -/
def ofMembers? (ms : List (String × Json.Value)) : Option Token :=
  match ms.lookup "kind", ms.lookup "text", ms.lookup "start" with
  | some (.text name), some (.text text), some (.number start) =>
    (Kind.ofName? name).map fun kind => ⟨kind, text, start⟩
  | _, _, _ => none

theorem ofPlain?_plain (t : Token) : ofPlain? (t.plain.toList ++ ['\n']) = some t := by
  have hline : t.plain.toList ++ ['\n'] = t.kind.name.toList ++ ' ' ::
      (Nat.toDigits 10 t.start ++ ' ' :: ((Quoted.text t.text).toList ++ ['\n'])) := by
    simp [plain]
  have hname : ∀ c ∈ t.kind.name.toList, (c != ' ') = true := by
    have hspace : ' ' ∉ t.kind.name.toList := Listing.Format.plain.mark_not_mem_name t.kind
    intro c hc
    rw [bne_iff_ne]
    rintro rfl
    exact hspace hc
  have hstop : NoDigit 10 (' ' :: ((Quoted.text t.text).toList ++ ['\n'])) := by
    rintro _ ⟨⟩
    decide
  rw [hline, ofPlain?, List.takeWhile_append_of_pos hname, List.dropWhile_append_of_pos hname]
  simp [Kind.ofName?_name, numeral_toDigits (by decide) (by decide) t.start hstop,
    Quoted.text_quoted]

theorem ofMembers?_members (t : Token) : ofMembers? t.members = some t := by
  show (Kind.ofName? t.kind.name).map _ = some t
  rw [Kind.ofName?_name]
  rfl

/-- The name of a kind has nothing to escape. -/
theorem encode_name (k : Kind) :
    (JsonString.encode k.name).toList = '"' :: (k.name.toList ++ ['"']) := by
  cases k <;> decide

/-- The JSON form is the token as an object. -/
theorem toList_json (t : Token) : t.json.toList = Json.write t.members := by
  have hkind : (JsonString.encode "kind").toList = "\"kind\"".toList := by decide
  have htext : (JsonString.encode "text").toList = "\"text\"".toList := by decide
  have hstart : (JsonString.encode "start").toList = "\"start\"".toList := by decide
  simp [json, members, Json.write, Json.writeMembers, Json.writeMember, Json.Value.write,
    encode_name, hkind, htext, hstart]

end Token

namespace Listing

/-- The token of a line. -/
def Format.token? : Format → List Char → Option Token
  | plain, line => Token.ofPlain? line
  | json, line => (Json.object? line).bind Token.ofMembers?

/-- A JSON line is the object of its token. -/
theorem Format.object?_line (t : Token) : Json.object? (json.line t).toList = some t.members := by
  rw [line, String.toList_append, Token.toList_json]
  exact Json.object?_write t.members (List.all_eq_true.mp rfl)

theorem Format.token?_line (format : Format) (t : Token) :
    format.token? (format.line t).toList = some t := by
  cases format with
  | plain =>
    rw [token?, line, String.toList_append]
    exact t.ofPlain?_plain
  | json => rw [token?, object?_line, Option.bind_some, Token.ofMembers?_members]

/-! ## §2 Listings -/

/-- The tokens of a listing, which is read line by line. -/
def Format.read? (format : Format) (output : String) : Option (List Token) :=
  (Text.lines output.toList).mapM format.token?

theorem Format.read?_lines (format : Format) (ts : List Token) :
    format.read? (format.lines ts) = some ts := by
  rw [read?, lines_lines]
  induction ts with
  | nil => rfl
  | cons t ts ih => simp [token?_line, ih]

theorem Format.lines_inj (format : Format) {ts us : List Token}
    (h : format.lines ts = format.lines us) : ts = us := by
  have hread := congrArg format.read? h
  rw [read?_lines, read?_lines] at hread
  exact Option.some.inj hread

/-- The only controls in a listing are the line feeds behind its lines. -/
theorem Format.filter_lines (format : Format) (ts : List Token) :
    (format.lines ts).toList.filter (·.toNat < 0x20) = List.replicate ts.length '\n' := by
  rw [toList_lines]
  induction ts with
  | nil => rfl
  | cons t ts ih =>
    obtain ⟨body, hbody, hline⟩ := format.line_eq t
    have hnone : body.filter (·.toNat < 0x20) = [] := by
      simpa [List.filter_eq_nil_iff, Text.Printing] using hbody
    rw [List.map_cons, List.flatten_cons, List.filter_append, ih, hline, List.filter_append, hnone]
    rfl

/-- A listing has one line feed for each token. -/
theorem Format.count_lines (format : Format) (ts : List Token) :
    (format.lines ts).toList.count '\n' = ts.length :=
  calc (format.lines ts).toList.count '\n'
      = ((format.lines ts).toList.filter (·.toNat < 0x20)).count '\n' :=
        (List.count_filter (by decide)).symm
    _ = ts.length := by rw [filter_lines, List.count_replicate_self]

/-- **The plain listing loses nothing.** It has a line for each token, and the tokens can be read
off it again: kinds, starts and texts, whatever is in the texts. So two texts of which the same is
listed, with or without comments, have the same tokens to list. -/
theorem plain_lossless :
    (∀ ts : List Token,
      let output := String.join (ts.map fun t =>
        t.kind.name ++ " " ++ toString t.start ++ " " ++ Text.Quoted.text t.text ++ "\n")
      output.toList.count '\n' = ts.length ∧ Format.plain.read? output = some ts) ∧
      ∀ (comments : Bool) (name source name' source' : String),
        let listed := (Scanner.ofString source).run.listed comments
        let listed' := (Scanner.ofString source').run.listed comments
        let output := (write name source .plain comments).output
        let output' := (write name' source' .plain comments).output
        Format.plain.read? output = some listed ∧ (output = output' ↔ listed = listed') := by
  refine ⟨fun ts => ⟨Format.plain.count_lines ts, Format.plain.read?_lines ts⟩, ?_⟩
  intro comments name source name' source' listed listed' output output'
  have houtput : output = Format.plain.lines listed := output_write name .plain comments source
  have houtput' : output' = Format.plain.lines listed' := output_write name' .plain comments source'
  rw [houtput, houtput']
  exact ⟨Format.plain.read?_lines listed, Format.plain.lines_inj, congrArg _⟩

/-- **The JSON listing loses nothing.** Its line feeds are as many as the tokens, and there is no
other control in it. Each line is an object whose members are the name of the kind, the text and
the start of its token; so the tokens of a text that are listed, with or without comments, are read
off its listing, also where the text could be scanned only up to an error. -/
theorem json_lossless :
    (∀ ts : List Token,
      let output := String.join (ts.map Format.json.line)
      output.toList.filter (·.toNat < 0x20) = List.replicate ts.length '\n' ∧
        (Text.lines output.toList).map Json.object? = ts.map fun t =>
          some [("kind", .text t.kind.name), ("text", .text t.text), ("start", .number t.start)]) ∧
      ∀ (comments : Bool) (name source : String),
        let r := (Scanner.ofString source).run
        Format.json.read? (write name source .json comments).output =
          some (r.tokens.filter fun t => comments || t.kind != .comment) := by
  constructor
  · intro ts output
    refine ⟨Format.json.filter_lines ts, ?_⟩
    have hlines : Text.lines output.toList = ts.map fun t => (Format.json.line t).toList :=
      Format.json.lines_lines ts
    rw [hlines, List.map_map]
    refine List.map_congr_left fun t _ => ?_
    rw [Function.comp_apply, Format.object?_line, Token.members]
  · intro comments name source r
    rw [output_write]
    exact Format.json.read?_lines (r.listed comments)

end Listing
end Lexeme
