import FaultDrill.Document.Basic
import FaultDrill.Naming

/-!
What the images of journeys are made of.

Owns:
- the description of the base image, which has the tools that steps use;
- the description of a journey's image, which adds the files of its build context;
- the script of a journey.

The script runs the steps as they are written and ends at the first that fails.
-/

namespace FaultDrill.Recipe

/-- The description of the base image. -/
def base : String := "FROM alpine:3.20

RUN apk add --no-cache \\
        bash \\
        ca-certificates \\
        curl \\
        httpie \\
        perl-libwww

WORKDIR /journey
"

/-- The description of a journey's image. -/
def journey (run : RunId) : String :=
  "FROM " ++ Naming.baseImage run ++ "
RUN mkdir -p /journey
WORKDIR /journey
COPY . /journey
RUN chmod +x /journey/entrypoint.sh
ENTRYPOINT [\"/journey/entrypoint.sh\"]
"

/-- The part of a script for a step and its number. -/
def stepText (step : String) (number : Nat) : String :=
  "# step " ++ Numeral.decimalText number ++ "\n" ++ step ++ "\n"

/-- The parts of a script for some steps and the number of the first. -/
def stepTexts : Nat → List String → List String
  | _, [] => []
  | number, step :: steps => stepText step number :: stepTexts (number + 1) steps

/-- The script of a journey. -/
def script (journey : Journey) : String :=
  "#!/bin/sh\nset -e\n" ++ String.join (stepTexts 1 journey.steps)

end FaultDrill.Recipe
