import ModuleLoader.Pattern.Automaton

/-! A choice between words in an automaton: a tree that words go down together as long as they have
the same bytes. Words that come later may not overtake a word that ends. -/
namespace ModuleLoader.Automaton

/-- Words between those that end at once. -/
def stretches : List (List Nat) → List (List (List Nat))
  | [] => [[]]
  | [] :: rest => [] :: stretches rest
  | word :: rest =>
    match stretches rest with
    | [] => [[word]]
    | first :: others => (word :: first) :: others

/-- What is left of the words that start with the given byte. -/
def behind (byte : Nat) (words : List (List Nat)) : List (List Nat) :=
  words.filterMap fun
    | first :: rest => if first = byte then some rest else none
    | [] => none

/-- What is left of the words, at a state that has a way for every stretch and for every end between
stretches. Several ends before any other word are one end. -/
def addTree : Nat → List (List Nat) → Automaton → Automaton
  | 0, _, m => m
  | depth + 1, words, m =>
    let ended := words.takeWhile List.isEmpty
    let parts := stretches (ended.take 1 ++ words.drop ended.length)
    let full := parts.filter fun part => !part.isEmpty
    let m := full.foldl (fun m part =>
      let heads := (part.filterMap List.head?).eraseDups
      let m := heads.foldl (fun m byte =>
        let rest := behind byte part
        if rest.all List.isEmpty then m else addTree depth rest m) m
      m.add (if heads.length = 1 then 0 else branch * heads.length)) m
    m.add (fork * (parts.length - 1 + full.length))

/-- A choice between words, given by their bytes in the order in which these are read. All words end
at one state. -/
def addWords (words : List (List Nat)) (m : Automaton) : Automaton :=
  let longest := (words.map List.length).foldl max 0
  addTree longest words (m.add 0)

end ModuleLoader.Automaton
