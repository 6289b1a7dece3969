import Mathlib.Data.List.Infix
import ScopedCheck.Compiler.Tsconfig
import ScopedCheck.Json.Equality
import ScopedCheck.Proofs.Json.Toleration
import ScopedCheck.Proofs.Outcome

/-!
# What is loaded of a configuration

A configuration is loaded as the object that it spells, whatever comments and
trailing commas it has.  Conversely what is loaded is an object spelled so, with
no more than the liberties that the tolerant dialect takes.
-/

namespace ScopedCheck

theorem Environment.pathExists_of_readBytes {env : Environment} {path : Path}
    {content : List UInt8} (h : env.readBytes path = .ok content) : env.pathExists path = true := by
  unfold readBytes FileTree.readBytes at h
  unfold pathExists FileTree.pathExists
  cases hlocate : env.tree.locate env.base path with
  | error cause =>
      rw [hlocate] at h
      cases h
  | ok location => rfl

namespace Tsconfig

theorem load_eq_ok_iff {env : Environment} {path : Path} {members : Members} :
    load env path = .ok members ↔ ∃ content text, env.readBytes path = .ok content ∧
      Utf8.decode? content = some text ∧ ofText (String.ofList text) = .ok members := by
  unfold load
  cases hread : env.readBytes path with
  | error cause => cases env.pathExists path <;> simp
  | ok content =>
      rw [Environment.pathExists_of_readBytes hread]
      cases hdecode : Utf8.decode? content with
      | none => simp [ofBytes, hdecode]
      | some text => cases htext : ofText (String.ofList text) <;> simp [ofBytes, hdecode, htext]

theorem load_of_ofText {env : Environment} {path : Path} {content : List UInt8} {text : List Char}
    {members : Members} (hread : env.readBytes path = .ok content)
    (hdecode : Utf8.decode? content = some text) (h : ofText (String.ofList text) = .ok members) :
    load env path = .ok members :=
  load_eq_ok_iff.2 ⟨content, text, hread, hdecode, h⟩

/--
A JSON text of an object has one sequence of tokens, and however these are laid
out with comments and trailing commas, the object of that text is what is loaded.
-/
theorem load_decorated {text : String} {value : Json.Value} {members : Members}
    (hparse : Json.parse? text = some value) (hobject : value.keyed = .object members) :
    (∃ tokens, Json.Parted tokens ∧ Json.Laid Json.IsBlank Json.IsBlank tokens text.toList) ∧
      ∀ tokens, Json.Parted tokens → Json.Laid Json.IsBlank Json.IsBlank tokens text.toList →
        ∀ decorated, Json.Decorated tokens decorated →
          ofText (String.ofList decorated) = .ok members ∧
            ∀ (env : Environment) (path : Path) (content : List UInt8),
              env.readBytes path = .ok content → Utf8.decode? content = some decorated →
                load env path = .ok members := by
  obtain ⟨spelled, hspelled, hdenotes⟩ := Json.parse?_eq_some_iff.1 hparse
  have hparted : Json.Parted spelled := Json.Parted.of_adjacent hdenotes.joined.chain
  refine ⟨⟨spelled, hparted, hspelled⟩, fun tokens htokens hlaid decorated hdecorated => ?_⟩
  obtain rfl : tokens = spelled := Json.Laid.unique htokens hparted hlaid hspelled
  have htext : ofText (String.ofList decorated) = .ok members := by
    have hvalue : Json.parseTolerant? (String.ofList decorated) = some value :=
      Json.parseTolerant?_of_decorated hdenotes (by rwa [String.toList_ofList])
    simp [ofText, hvalue, hobject]
  exact ⟨htext, fun env path content hread hdecode => load_of_ofText hread hdecode htext⟩

/-- Quotes, brackets and comment markers mean nothing in comments and in strings. -/
theorem load_decorated_markers :
    let decorated := "\x7b\"a\"/*\"*/:[1,\"/*\\\",\x7d\"//]\n,]/***/\x7d//".toList
    let members : Members := [("a", .array [.number (.int 1), .string "/*\",\x7d"])]
    let tree := FileTree.empty.addFile ⟨"/t"⟩ (Utf8.encode decorated) false
    Json.parse? "\x7b\"a\":[1,\"/*\\\",\x7d\"]\x7d" = some (.object members) ∧
      ofText (String.ofList decorated) = .ok members ∧
        load ⟨tree, ⟨"/"⟩, [], ⟨"/"⟩, default⟩ ⟨"/t"⟩ = .ok members := by
  intro decorated members tree
  have hparse : Json.parse? "\x7b\"a\":[1,\"/*\\\",\x7d\"]\x7d" = some (.object members) := by
    decide +kernel +zetaReduce
  have hname : Json.Token.IsValid (.quoted ['a']) := .plain (by decide) (by decide) .nil
  have hstring : Json.Token.IsValid (.quoted ['/', '*', '\\', '"', ',', '}']) :=
    .plain (by decide) (by decide) (.plain (by decide) (by decide) (.escaped '"'
      (.plain (by decide) (by decide) (.plain (by decide) (by decide) .nil))))
  have hnumber : Json.Token.IsValid (.word ['1']) := by
    refine ⟨List.cons_ne_nil _ _, fun c hc => ?_⟩
    obtain rfl := List.mem_singleton.1 hc
    rfl
  have hlaid : Json.Laid Json.IsBlank Json.IsBlank
      [.mark '{', .quoted ['a'], .mark ':', .mark '[', .word ['1'], .mark ',',
        .quoted ['/', '*', '\\', '"', ',', '}'], .mark ']', .mark '}']
      "\x7b\"a\":[1,\"/*\\\",\x7d\"]\x7d".toList := by
    have hgap := Json.isBlank_nil
    exact Json.laid_cons hgap rfl <| Json.laid_cons hgap hname <| Json.laid_cons hgap rfl <|
      Json.laid_cons hgap rfl <| Json.laid_cons hgap hnumber <| Json.laid_cons hgap rfl <|
        Json.laid_cons hgap hstring <| Json.laid_cons hgap rfl <| Json.laid_cons hgap rfl hgap
  have hdecorated : Json.Decorated
      [.mark '{', .quoted ['a'], .mark ':', .mark '[', .word ['1'], .mark ',',
        .quoted ['/', '*', '\\', '"', ',', '}'], .mark ']', .mark '}'] decorated := by
    have hgap := Json.Trivia.nil
    have hquote : Json.Trivia ['/', '*', '"', '*', '/'] :=
      @Json.Trivia.block ['"'] [] (by decide) .nil
    have hstar : Json.Trivia ['/', '*', '*', '*', '/'] :=
      @Json.Trivia.block ['*'] [] (by decide) .nil
    have hline : Json.Trivia ['/', '/', ']', '\n'] := @Json.Trivia.line [']'] [] (by decide) .nil
    have hlast : Json.LastTrivia ['/', '/'] := .unfinished .nil List.not_mem_nil
    refine ⟨_, .keep _ <| .keep _ <| .keep _ <| .keep _ <| .keep _ <| .keep _ <|
      .comma rfl rfl <| .keep _ <| .keep _ .nil, ?_⟩
    exact Json.laid_cons hgap rfl <| Json.laid_cons hgap hname <| Json.laid_cons hquote rfl <|
      Json.laid_cons hgap rfl <| Json.laid_cons hgap hnumber <| Json.laid_cons hgap rfl <|
        Json.laid_cons hgap hstring <| Json.laid_cons hline rfl <| Json.laid_cons hgap rfl <|
          Json.laid_cons hstar rfl hlast
  have hloaded := (load_decorated hparse rfl).2 _ (by decide) hlaid decorated hdecorated
  have hread : ∀ content, Environment.readBytes
      ⟨FileTree.empty.addFile ⟨"/t"⟩ content false, ⟨"/"⟩, [], ⟨"/"⟩, default⟩ ⟨"/t"⟩ = .ok content :=
    fun _ => rfl
  have hdecode : Utf8.decode? (Utf8.encode decorated) = some decorated := by
    decide +kernel +zetaReduce
  exact ⟨hparse, hloaded.1, hloaded.2 _ _ _ (hread (Utf8.encode decorated)) hdecode⟩

theorem ofText_eq_ok_iff {text : String} {members : Members} :
    ofText text = .ok members ↔
      ∃ value, Json.parseTolerant? text = some value ∧ value.keyed = .object members := by
  unfold ofText
  cases Json.parseTolerant? text with
  | none => simp
  | some value => cases hkeyed : value.keyed <;> simp [hkeyed]

def IsTextOf (text : List Char) (members : Members) : Prop :=
  ∃ tokens value, Json.Denotes Json.maxDepth tokens value ∧ value.keyed = .object members ∧
    Json.Tolerated tokens text

/--
A configuration is loaded exactly when it is tolerated for the tokens of an
object, as the object of these tokens.
-/
theorem loaded_iff_tolerated :
    (∀ (text : String) (members : Members),
      ofText text = .ok members ↔ IsTextOf text.toList members) ∧
    ∀ (env : Environment) (path : Path) (members : Members),
      load env path = .ok members ↔ ∃ content text, env.readBytes path = .ok content ∧
        Utf8.decode? content = some text ∧ IsTextOf text members := by
  have htext : ∀ (text : String) (members : Members),
      ofText text = .ok members ↔ IsTextOf text.toList members := by
    intro text members
    rw [ofText_eq_ok_iff]
    constructor
    · rintro ⟨value, hvalue, hkeyed⟩
      obtain ⟨tokens, hdenotes, htolerated⟩ := Json.parseTolerant?_eq_some_iff.1 hvalue
      exact ⟨tokens, value, hdenotes, hkeyed, htolerated⟩
    · rintro ⟨tokens, value, hdenotes, hkeyed, htolerated⟩
      exact ⟨value, Json.parseTolerant?_eq_some_iff.2 ⟨tokens, hdenotes, htolerated⟩, hkeyed⟩
  refine ⟨htext, fun env path members => ?_⟩
  simp only [load_eq_ok_iff, htext, String.toList_ofList]

/-- Whether a text is an object with comments in its gaps and trailing commas. -/
def IsDecorated (text : String) : Prop :=
  ∃ tokens value, Json.Denotes Json.maxDepth tokens value ∧ Json.Decorated tokens text.toList

/-- Commas in empty containers, words with comments inside and open comments are accepted. -/
theorem loaded_undecorated :
    (ofText "\x7b,\x7d" = .ok [] ∧ ¬ IsDecorated "\x7b,\x7d") ∧
      (ofText "\x7b\"a\":1/**/2\x7d" = .ok [("a", .number (.int 12))] ∧
        ¬ IsDecorated "\x7b\"a\":1/**/2\x7d") ∧
      (ofText "\x7b\x7d/*" = .ok [] ∧ ¬ IsDecorated "\x7b\x7d/*") := by
  refine ⟨⟨eq_ok_of_toOption (by decide +kernel), ?_⟩,
    ⟨eq_ok_of_toOption (by decide +kernel), ?_⟩, ⟨eq_ok_of_toOption (by decide +kernel), ?_⟩⟩
  · rintro ⟨tokens, value, hdenotes, others, htrailing, hlaid⟩
    have hstripped := Json.laid_stripComments_iff.2 (Json.laidLoosely_of_laid hlaid)
    have hknown : Json.Laid Json.IsBlank Json.IsBlank [.mark '{', .mark ',', .mark '}']
        (Json.stripComments "\x7b,\x7d".toList) :=
      Json.laid_cons Json.isBlank_nil rfl <| Json.laid_cons Json.isBlank_nil rfl <|
        Json.laid_cons Json.isBlank_nil rfl Json.isBlank_nil
    have hparted := htrailing.padded.parted (.of_adjacent hdenotes.joined.chain)
    obtain rfl := Json.Laid.unique hparted (by decide) hstripped hknown
    cases htrailing with
    | comma hopens => cases hopens
    | keep _ hcomma =>
        cases hcomma with
        | keep _ hclosing =>
            cases hclosing with
            | keep _ hnil =>
                cases hnil
                have hchain := (List.isChain_cons_cons.1 hdenotes.joined.chain).2
                exact (List.isChain_cons_cons.1 hchain).1.unended ⟨rfl, rfl⟩
  · rintro ⟨tokens, value, hdenotes, others, htrailing, hlaid⟩
    have hstripped := Json.laid_stripComments_iff.2 (Json.laidLoosely_of_laid hlaid)
    have hknown : Json.Laid Json.IsBlank Json.IsBlank
        [.mark '{', .quoted ['a'], .mark ':', .word ['1', '2'], .mark '}']
        (Json.stripComments "\x7b\"a\":1/**/2\x7d".toList) := by
      have hname : Json.Token.IsValid (.quoted ['a']) := .plain (by decide) (by decide) .nil
      have hnumber : Json.Token.IsValid (.word ['1', '2']) :=
        ⟨List.cons_ne_nil _ _, List.all_eq_true.1 (by decide)⟩
      exact Json.laid_cons Json.isBlank_nil rfl <| Json.laid_cons Json.isBlank_nil hname <|
        Json.laid_cons Json.isBlank_nil rfl <| Json.laid_cons Json.isBlank_nil hnumber <|
          Json.laid_cons Json.isBlank_nil rfl Json.isBlank_nil
    have hparted := htrailing.padded.parted (.of_adjacent hdenotes.joined.chain)
    obtain rfl := Json.Laid.unique hparted (by decide) hstripped hknown
    have hnumber : Json.Token.word ['1', '2'] ∈ [.mark '{', .quoted ['a'], .mark ':',
        .word ['1', '2'], .mark '}'] := by decide
    have hinfix := Json.infix_of_laid hlaid hnumber
    revert hinfix
    decide
  · rintro ⟨tokens, value, hdenotes, others, htrailing, hlaid⟩
    obtain ⟨kept, hkept⟩ := Json.stripComments_append_line hlaid
    have hline : '\n' ∈ Json.stripComments "\x7b\x7d/*\n".toList := by
      rw [show "\x7b\x7d/*\n".toList = "\x7b\x7d/*".toList ++ ['\n'] from rfl, hkept []]
      simp
    revert hline
    decide

end Tsconfig

end ScopedCheck
