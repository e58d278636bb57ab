import Offside.Rendition

/-!
# Demonstration

A built-in snippet with declarations, printing, a counted loop and a variable named after a
built-in, and its conversion under a title.
-/

namespace Offside

/-- What stands above the demonstration. -/
def demoTitle : String := "Converted Python Code:\n"

/-- The snippet of the demonstration. -/
def demoSnippet : String :=
  "\n" ++
  "import java.util.Scanner;\n" ++
  "\n" ++
  "public class Fibonacci \x7b\n" ++
  "    public static void main(String[] args) \x7b\n" ++
  "        int n = 10, t1 = 0, t2 = 1;\n" ++
  "        System.out.println(\"First \" + n + \" terms: \");\n" ++
  "\n" ++
  "        for (int i = 1; i <= n; ++i) \x7b\n" ++
  "            System.out.print(t1 + \" + \");\n" ++
  "            int sum = t1 + t2;\n" ++
  "            t1 = t2;\n" ++
  "            t2 = sum;\n" ++
  "        \x7d\n" ++
  "    \x7d\n" ++
  "\x7d\n"

/-- The converted snippet under its title. -/
def demo : String :=
  demoTitle ++ "\n" ++ toPython demoSnippet

end Offside
